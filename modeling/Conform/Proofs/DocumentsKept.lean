import Conform.CommandLine.Command
import Conform.Proofs.JsonText
import Conform.Proofs.Nearest
import Conform.Proofs.Patches
import Conform.Proofs.UnknownKeys

/-!
# Documents kept

A document is taken as a value, and what came of the value is written as a document. Nothing is lost
on the way but digits of integers: a value holds doubles, so an integer that is none becomes the
nearest one. All else is as it was, member by member (`Json.Matched`).

So a check that leaves a value alone leaves the document alone: that of a schema for anything, that
of keys nothing is about, and the whole of a validation by the command line.

What is kept is said with one relation of data, in which structure, names and texts agree and
numbers are related by a parameter (`Json.Matched`). With the parameter being equality it says that
the document is the same; with rounding, that each number is the nearest double. Reading a document
into a value and writing it again satisfies the second for all documents, and the first for those
whose integers are doubles, in particular for those of no more than 53 bits.

Then come the ways that a document takes through the program. The schema for anything gives back its
value. An object gives back the members under keys that nothing is about. The command line reads
files, builds the schema, validates, and writes the value as text or as JSON; for a schema for
anything it is run step by step, with the readers and the files of the world as parameters.

Main statements: `document_kept`, and `long_integer_changes` for an integer that is no double.
-/

namespace Conform

namespace Json

/-- Data as a document holds it, its integers being such as `P` says: numbers are finite, and
members ascend by their keys. -/
inductive Held (P : Int → Prop) : Json → Prop
  | null : Held P .null
  | bool (b : Bool) : Held P (.bool b)
  | int {i : Int} : P i → Held P (.int i)
  | float {n : Number} : n.isFinite = true → Held P (.float n)
  | string (s : String) : Held P (.string s)
  | array {items : List Json} : (∀ item ∈ items, Held P item) → Held P (.array items)
  | object {members : List (String × Json)} : Ascending members →
      (∀ member ∈ members, Held P member.2) → Held P (.object members)

/-- The same structure, members and leaves, numbers being related by `R`. -/
inductive Matched (R : ℚ → ℚ → Prop) : Json → Json → Prop
  | null : Matched R .null .null
  | bool (b : Bool) : Matched R (.bool b) (.bool b)
  | string (s : String) : Matched R (.string s) (.string s)
  | number {a b : Json} {x y : ℚ} : a.number? = some x → b.number? = some y → R x y → Matched R a b
  | array {items items' : List Json} : List.Forall₂ (Matched R) items items' →
      Matched R (.array items) (.array items')
  | object {members members' : List (String × Json)} :
      Members.keys members' = Members.keys members →
      List.Forall₂ (Matched R) (members.map Prod.snd) (members'.map Prod.snd) →
      Matched R (.object members) (.object members')

end Json

/-- The second rational is that of the double nearest to the first. -/
def Rounded (x y : ℚ) : Prop := ∃ n : Number, n.IsNearest x ∧ n.toRat = y

/-- Integers of 64 bits, with a sign or without. -/
def IsLong (i : Int) : Prop := -2 ^ 63 ≤ i ∧ i < 2 ^ 64

/-- Integers that are doubles. -/
def IsDouble (i : Int) : Prop := i.natAbs ≤ 2 ^ 53 ∨ ∃ n : Number, n.isFinite = true ∧ n.toRat = i

namespace Value

open Json

/-! ### To a value and back -/

theorem toJsonItems_eq (items : List Value) : toJsonItems items = items.map toJson := by
  induction items with
  | nil => rfl
  | cons item rest ih => rw [toJsonItems, ih, List.map_cons]

theorem ofJsonItems_eq (items : List Json) : ofJsonItems items = items.map ofJson := by
  induction items with
  | nil => rfl
  | cons item rest ih => rw [ofJsonItems, ih, List.map_cons]

/-- Every member that was read is written. -/
theorem toJsonMembers_ofJsonMembers (members : List (String × Json)) :
    toJsonMembers (ofJsonMembers members) = members.map fun member =>
    (member.1, (ofJson member.2).toJson) := by
  induction members with
  | nil => rfl
  | cons member rest ih =>
    obtain ⟨name, json⟩ := member
    have hdefined := isDefined_ofJson json
    rw [ofJsonMembers, List.map_cons, ← ih]
    dsimp only
    generalize ofJson json = value at hdefined ⊢
    rw [toJsonMembers]
    rintro rfl
    cases hdefined

theorem get?_ofJsonMembers (members : List (String × Json)) (key : String) :
    Members.get? (ofJsonMembers members) key = (Members.get? members key).map ofJson := by
  induction members with
  | nil => rfl
  | cons member rest ih =>
    obtain ⟨name, json⟩ := member
    rw [ofJsonMembers, Members.get?_cons, Members.get?_cons, ih]
    by_cases hname : name = key
    · rw [if_pos hname, if_pos hname, Option.map_some]
    · rw [if_neg hname, if_neg hname]

variable {P : Int → Prop} {R : ℚ → ℚ → Prop}

/-- The conversions keep all but the numbers, and what is known of the numbers. -/
theorem matched_of_held
    (hint : ∀ i, P i → (Number.ofInt i).isFinite = true ∧ R i (Number.ofInt i).toRat)
    (hfloat : ∀ n : Number, n.isFinite = true → R n.toRat n.toRat) {json : Json} (h : json.Held P) :
    Matched R json (ofJson json).toJson := by
  induction h with
  | null => exact .null
  | bool b => exact .bool b
  | string s => exact .string s
  | int hi =>
    obtain ⟨hfinite, hrelated⟩ := hint _ hi
    exact .number rfl (number?_numberToJson hfinite) hrelated
  | float hn => exact .number rfl (number?_numberToJson hn) (hfloat _ hn)
  | @array items _ ih =>
    rw [ofJson, toJson, toJsonItems_eq, ofJsonItems_eq, List.map_map]
    refine .array ?_
    rw [List.forall₂_map_right_iff, List.forall₂_same]
    exact ih
  | @object members hascending _ ih =>
    -- members that ascend are still sorted after they are written
    have hwritten : Ascending (members.map fun member => (member.1, (ofJson member.2).toJson)) := by
      unfold Ascending Members.keys
      rw [List.map_map]
      exact hascending
    rw [ofJson, toJson, toJsonMembers_ofJsonMembers, sortMembers_of_ascending hwritten]
    refine .object ?_ ?_
    · unfold Members.keys
      rw [List.map_map]
      rfl
    · rw [List.map_map, List.forall₂_map_left_iff, List.forall₂_map_right_iff, List.forall₂_same]
      exact ih

theorem matched_rounded {json : Json} (h : json.Held IsLong) :
    Matched Rounded json (ofJson json).toJson := by
  refine matched_of_held ?_ ?_ h
  · rintro i ⟨hlow, hhigh⟩
    have hfinite : (Number.ofInt i).isFinite = true := Number.isFinite_ofInt (by omega)
    exact ⟨hfinite, _, Number.isNearest_ofInt hfinite, rfl⟩
  · exact fun n hn => ⟨n, Number.isNearest_toRat hn, rfl⟩

theorem matched_exact {json : Json} (h : json.Held fun i => IsLong i ∧ IsDouble i) :
    Matched Eq json (ofJson json).toJson := by
  refine matched_of_held ?_ (fun _ _ => rfl) h
  rintro i ⟨⟨hlow, hhigh⟩, hdouble⟩
  have hfinite : (Number.ofInt i).isFinite = true := Number.isFinite_ofInt (by omega)
  refine ⟨hfinite, ?_⟩
  rcases hdouble with hsmall | ⟨n, hn, heq⟩
  · exact (Number.toRat_ofInt hsmall).symm
  · exact ((Number.isNearest_ofInt hfinite).exact hn heq).symm

end Value

/-! ### Checks that leave a value alone -/

namespace Site

variable {site : Site} {check : Check}

/-- The schema for anything gives back what it gets, unless nothing may be there. -/
theorem run_any (hnode : site.node = Schema.any.node) (hpresence : site.prefs.presence ≠ .forbidden)
    (hdefined : site.input.isDefined = true) : site.run check = pure { value := site.input } := by
  have hform : site.node.form = .any := by rw [hnode]; rfl
  have hempty : site.node.empty = none := by rw [hnode]; rfl
  -- no step of the node has anything to do, from conversion to the finish
  have hconvert : site.convert site.input = .ok site.input := by
    unfold convert
    rw [hform]
    split <;> rfl
  have hdrop : site.dropEmpty check site.input = pure site.input := by
    unfold dropEmpty
    rw [hempty]
  have hpresent : site.checkPresence site.input = .ok site.input := by
    have hnone : site.node.flags.presence = none := by rw [hnode]; rfl
    unfold checkPresence presence
    rw [hnone, hdefined]
    cases hasked : site.prefs.presence with
    | forbidden => exact absurd hasked hpresence
    | _ => rfl
  have hallowed : site.allowed? site.input = none := by
    unfold allowed?
    rw [hnode]
    rfl
  have hdenials : site.denials site.input = [] := by
    unfold denials
    rw [hnode]
    rfl
  have hfill : site.fillIn site.input [] = (site.input, []) := by
    unfold fillIn
    rw [hdefined]
    rfl
  have hmessage : site.withOwnMessage site.input [] = [] := by
    unfold withOwnMessage
    split
    next heq _ => exact nomatch heq
    next => rfl
  have hfinish : site.finish site.input [] = { value := site.input } := by
    have hraw : site.node.flags.raw = false := by rw [hnode]; rfl
    have hstrip : site.node.flags.strip = false := by rw [hnode]; rfl
    unfold finish recover
    simp only [List.isEmpty_nil, if_true, hmessage, hfill, hraw, hstrip,
      Bool.false_eq_true, if_false, Bool.or_self]
  have hcontent : site.checkContent check site.input [] = pure { value := site.input } := by
    have hrules : site.node.rules = [] := by rw [hnode]; rfl
    have hbase : site.checkBase check site.input = pure { value := site.input } := by
      unfold checkBase
      rw [hform]
    unfold checkContent
    rw [hbase, pure_bind, hrules]
    exact congrArg (pure : Outcome → Run Outcome) hfinish
  unfold run
  rw [hconvert]
  dsimp only
  rw [hdrop, pure_bind, hpresent]
  dsimp only
  unfold checkPresent
  rw [hallowed]
  dsimp only
  rw [hdenials]
  exact hcontent

end Site

theorem Schema.validate_any (env : Environment) {value : Value} (hdefined : value.isDefined = true)
    {prefs : Preferences} (hpresence : prefs.presence ≠ .forbidden) (renderer : Messages.Renderer) :
    Schema.any.validate env value prefs renderer = pure ⟨value, []⟩ := by
  have hcheck : Schema.any.check env value prefs = pure { value } := by
    show Site.run ⟨env, Schema.any, .root, prefs, value⟩ (Check.within env 19999) = _
    exact Site.run_any rfl hpresence hdefined
  unfold Schema.validate
  rw [hcheck]
  rfl

/-! ### The command line -/

namespace CommandLine

open Json

/-- What `validate` says in text of a document that passes as it is. -/
def keptText (file : String) (json : Json) : String :=
  file ++ ": ok\n" ++ (Value.ofJson json).toJson.pretty ++ "\n"

/-- What it says in JSON. -/
def keptJson (file : String) (json : Json) : Json :=
  .object [("input", .string file), ("value", (Value.ofJson json).toJson)]

variable {world : World} {options : ValidateOptions} {documents : String → Json}

theorem mapM_some {α β : Type} {f : α → Option β} {g : α → β} {items : List α}
    (h : ∀ a ∈ items, f a = some (g a)) : items.mapM f = some (items.map g) := by
  have hmap := Attempt.mapM_map_pure (g := id) (f := f) h
  rwa [List.map_id] at hmap

/-- What a file in JSON says is up to the reader of JSON. -/
theorem source?_of_json {file text : String} (hformat : Format.ofFile? file = some .json)
    (hread : world.read file = some text) : world.source? file = Json.read? text := by
  unfold World.source?
  rw [hread, hformat]
  rfl

theorem verdict?_any {prefs : Preferences} (hpresence : prefs.presence ≠ .forbidden)
    {file : String} {json : Json} (hjson : (world.source? file).bind Source.toJson? = some json) :
    world.verdict? Schema.any prefs file = some (file, ⟨Value.ofJson json, []⟩) := by
  obtain ⟨source, hsource, hread⟩ := Option.bind_eq_some_iff.mp hjson
  unfold World.verdict?
  rw [hsource]
  simp only [Option.bind_eq_bind, Option.bind_some, hread]
  rw [Schema.validate_any _ (Value.isDefined_ofJson json) hpresence]
  rfl

/-- A schema for anything lets `validate` write every document back as it was read. -/
theorem validate?_any {prefs : Preferences}
    (hschema : world.schema? options.schema = some Schema.any)
    (hprefs : world.preferences? options = some prefs) (hpresence : prefs.presence ≠ .forbidden)
    (hdocuments : ∀ file ∈ options.inputs, (world.source? file).bind Source.toJson? =
      some (documents file)) :
    validate? world options = some (.print 0 (
      if options.json then
        (Json.array (options.inputs.map fun file => keptJson file (documents file))).pretty ++ "\n"
      else String.join (options.inputs.map fun file => keptText file (documents file)))) := by
  have hverdicts : options.inputs.mapM (world.verdict? Schema.any prefs) =
      some (options.inputs.map fun file => (file, ⟨Value.ofJson (documents file), []⟩)) :=
    mapM_some fun file hfile => verdict?_any hpresence (hdocuments file hfile)
  have hpass : (options.inputs.map fun file =>
      ((file, ⟨Value.ofJson (documents file), []⟩) : String × Verdict)).all (fun v =>
        v.2.isOk) = true := by
    rw [List.all_map]
    exact List.all_eq_true.mpr fun _ _ => rfl
  unfold validate?
  simp only [hschema, hprefs, hverdicts, Option.bind_eq_bind, Option.bind_some, hpass,
    if_true, List.map_map]
  rfl

end CommandLine

/-! ### The whole -/

open Json in
/-- A document written again has the structure, the members and the texts it had, and in place
of each number the nearest double, which is the number itself where that is a double. So it is
after a check for anything, under keys of an object that nothing is about, and where
`validate` prints what passes. -/
theorem document_kept :
    (∀ json : Json, json.Held IsLong → Matched Rounded json (Value.ofJson json).toJson) ∧
    (∀ json : Json, json.Held (fun i => IsLong i ∧ IsDouble i) →
      Matched Eq json (Value.ofJson json).toJson) ∧
    (∀ (env : Environment) (json : Json) (prefs : Preferences) (renderer : Messages.Renderer),
      prefs.presence ≠ .forbidden →
      Schema.any.validate env (Value.ofJson json) prefs renderer = pure ⟨Value.ofJson json, []⟩) ∧
    (∀ (form : ObjectForm Schema) (check : Check) (site : Site)
      (members : List (String × Json)) (key : String) (json : Json) (w w' : Workshop) (o : Outcome),
      form.Ignores check site key → form.Spares site → Members.get? members key = some json →
      (form.base check site (Value.ofJson (.object members))).run w = some (o, w') →
      o.value.get? key = some (Value.ofJson json)) ∧
    (∀ (world : CommandLine.World) (options : CommandLine.ValidateOptions) (prefs : Preferences)
      (documents : String → Json),
      world.schema? options.schema = some Schema.any → world.preferences? options = some prefs →
      prefs.presence ≠ .forbidden →
      (∀ file ∈ options.inputs, (world.source? file).bind Source.toJson? = some (documents file)) →
      CommandLine.validate? world options = some (.print 0 (
        if options.json then
          (Json.array (options.inputs.map fun file =>
            CommandLine.keptJson file (documents file))).pretty ++ "\n"
        else String.join
          (options.inputs.map fun file => CommandLine.keptText file (documents file))))) := by
  refine ⟨fun _ => Value.matched_rounded, fun _ => Value.matched_exact, ?_, ?_, ?_⟩
  · intro env json prefs renderer hpresence
    exact Schema.validate_any env (Value.isDefined_ofJson json) hpresence renderer
  · intro form check site members key json w w' o hignores hspares hmember hrun
    refine ObjectForm.member_untouched hignores hspares ?_ hrun
    rw [Value.get?_ofJsonMembers, hmember]
    rfl
  · intro world options prefs documents hschema hprefs hpresence hdocuments
    exact CommandLine.validate?_any hschema hprefs hpresence hdocuments

/-- A note with an identifier. -/
def note (id : Int) : Json := .object [("id", .int id), ("tags", .array [.string "new", .null])]

theorem ascending_note (id : Int) :
    Json.Ascending [("id", .int id), ("tags", .array [.string "new", .null])] := by
  show List.Pairwise (· < ·) ["id", "tags"]
  decide

theorem sorted_note (id : Int) : (note id).sorted = note id := by
  unfold note
  rw [Json.sorted]
  exact congrArg Json.object (Json.sortMembers_of_ascending (ascending_note id))

theorem held_note {P : Int → Prop} {id : Int} (h : P id) : (note id).Held P := by
  refine .object (ascending_note id) ?_
  intro member hmember
  rcases List.mem_cons.mp hmember with rfl | hmember
  · exact .int h
  · obtain rfl := List.mem_singleton.mp hmember
    refine .array ?_
    intro item hitem
    rcases List.mem_cons.mp hitem with rfl | hitem
    · exact .string "new"
    · obtain rfl := List.mem_singleton.mp hitem
      exact .null

/-- An object with tags, and what else there may be. -/
def taggedForm : ObjectForm Schema where
  keys := some [("tags", Schema.array)]
  order := ["tags"]
  unknown := some true

def noteSite : Site := ⟨{}, Schema.ofForm (.object taggedForm), .root, {}, Value.ofJson (note 7)⟩

/-- A manifest for anything, and a note. -/
def noteFile (file : String) : Option String :=
  if file = "any.json" then some "\x7b\"type\":\"any\"\x7d"
  else if file = "note.json" then some (note 7).compact
  else none

def noteWorld : CommandLine.World := { read := noteFile, now := default }

def noteOptions : CommandLine.ValidateOptions := { schema := "any.json", inputs := ["note.json"] }

theorem document_kept_note :
    (note 9007199254740993).Matched Rounded (Value.ofJson (note 9007199254740993)).toJson ∧
    (note 7).Matched Eq (Value.ofJson (note 7)).toJson ∧
    Schema.any.validate {} (Value.ofJson (note 7)) {} Messages.english =
      pure ⟨Value.ofJson (note 7), []⟩ ∧
    (∃ o w', (taggedForm.base (Check.within {} 1) noteSite (Value.ofJson (note 7))).run {} =
      some (o, w') ∧
      o.value.get? "id" = some (.number 7)) ∧
    CommandLine.validate? noteWorld noteOptions =
      some (.print 0 (CommandLine.keptText "note.json" (note 7))) := by
  obtain ⟨hrounded, hexact, hany, hunknown, hcommand⟩ := document_kept
  refine ⟨hrounded _ (held_note ⟨by decide, by decide⟩),
    hexact _ (held_note ⟨⟨by decide, by decide⟩, .inl (by decide)⟩),
    hany _ _ _ _ (by decide), ?_, ?_⟩
  · have hruns : ((taggedForm.base (Check.within {} 1) noteSite (Value.ofJson (note 7))).run
        {}).isSome = true := by
      decide +kernel
    obtain ⟨⟨o, w'⟩, hrun⟩ := Option.isSome_iff_exists.mp hruns
    refine ⟨o, w', hrun, hunknown taggedForm _ noteSite _ "id" (.int 7) {} w' o ?_
      (.inr rfl) rfl hrun⟩
    exact ⟨List.forall_mem_nil _, by decide, List.forall_mem_nil _⟩
  · have hdocuments : ∀ file ∈ noteOptions.inputs,
        (noteWorld.source? file).bind Source.toJson? = some (note 7) := by
      intro file hfile
      obtain rfl := List.mem_singleton.mp hfile
      have hfile : noteWorld.read "note.json" = some (note 7).compact := by
        show noteFile "note.json" = _
        unfold noteFile
        rw [if_neg (by decide), if_pos rfl]
      have hlegible : (note 7).isLegible = true := by decide
      show (noteWorld.source? "note.json").bind Source.toJson? = some (note 7)
      have hformat : CommandLine.Format.ofFile? "note.json" = some .json := by decide
      have hread := Json.read?_compact (Json.legible_of_test _ hlegible) (by decide)
      rw [CommandLine.source?_of_json hformat hfile, hread, Option.bind_some, Json.toJson?_toSource,
        sorted_note]
    have hsource : noteWorld.source? "any.json" = Json.read? "\x7b\"type\":\"any\"\x7d" :=
      CommandLine.source?_of_json (by decide) rfl
    have hmanifest : (noteWorld.source? "any.json").bind Manifest.read? =
        some { sheet := { kind := "any" } } := by
      rw [hsource]
      cbv
    have hbuilt : ({ sheet := { kind := "any" } } : Manifest).build = .ok Schema.any := by
      with_unfolding_all rfl
    have hschema : noteWorld.schema? noteOptions.schema = some Schema.any := by
      show (noteWorld.schema? "any.json") = _
      unfold CommandLine.World.schema?
      rw [hmanifest]
      show ({ sheet := { kind := "any" } } : Manifest).build.toOption = _
      rw [hbuilt]
      rfl
    have hprint :=
      hcommand noteWorld noteOptions {} (fun _ => note 7) hschema rfl (by decide) hdocuments
    rw [hprint]
    show some
      (CommandLine.Effect.print 0 (String.join [CommandLine.keptText "note.json" (note 7)])) = _
    rw [String.join_cons, String.join_nil, String.append_empty]

/-- The least integer above `2 ^ 53` is no double, and is written as its neighbour. -/
theorem long_integer_changes :
    (Json.int 9007199254740993).Held IsLong ∧
    ¬(Json.int 9007199254740993).Matched Eq (Value.ofJson (.int 9007199254740993)).toJson ∧
    (Value.ofJson (.int 9007199254740993)).toJson.number? = some 9007199254740992 := by
  have hsame : Number.ofInt 9007199254740993 = Number.ofInt 9007199254740992 := by decide +kernel
  have hwritten : (Value.ofJson (.int 9007199254740993)).toJson.number? =
      some 9007199254740992 := by
    show (Value.numberToJson (Number.ofInt 9007199254740993)).number? = _
    rw [hsame, Value.number?_numberToJson (Number.isFinite_ofInt (by decide)),
      Number.toRat_ofInt (by decide)]
    norm_num
  refine ⟨.int ⟨by decide, by decide⟩, ?_, hwritten⟩
  intro hmatched
  generalize (Value.ofJson (.int 9007199254740993)).toJson = written at hmatched hwritten
  cases hmatched with
  | number hread hagain heq =>
    obtain rfl := Option.some.inj hread
    rw [hwritten] at hagain
    have hvalue := (Option.some.inj hagain).trans heq.symm
    norm_num at hvalue

end Conform
