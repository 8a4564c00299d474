import Conform.Proofs.JsonText
import Conform.Proofs.Reread

/-!
# Descriptions written as texts

The text of a description says all of it. Every field of a sheet is left out when it has the value
that a missing field takes, and is read to be what it was otherwise; flags, arguments, children and
messages keep their order. What a patch of preferences cannot ask for is not read, and its context
is read as plain data, so both have to be such as a text can say (`Manifest.Lossless`).

A description is written to a text and the text is read to a source, which keeps members in the
order in which they are written. What is known of texts gives the source; what is known of sheets
gives that the source is read to the sheet, field by field. The order in which members are found is
that in which they stand, so that nothing is put in another order (`Sheet.arranged_standing`). The
induction is on the description, and goes through the descriptions inside a sheet, while those
inside arguments are data and come back as data.

What is assumed is decided by looking at the description: no key stands twice in a table, numbers
are finite and written exactly, data is sorted, a presence can be asked for, and what is in a
context is plain data. The description of a node is tidy if the patch of the node can be asked for
(`Schema.Askable.tidy`).

Main statement: `Manifest.text_says_all`.
-/

namespace Conform.Manifest

open Json

/-- Nothing that the description says is lost when it is written, neither of its
sheet nor of those inside. -/
inductive Lossless : Manifest → Prop
  | mk {m : Manifest} (tidy : m.sheet.Tidy)
      (contexts : ∀ p ∈ m.sheet.preferences, ∀ v ∈ p.context, Value.ofJson v.toJson = v)
      (inner : ∀ child ∈ m.inner, Lossless child) : Lossless m

/-- What stands in the order in which it was written is not put in another one. -/
theorem Sheet.arranged_standing {δ : Type} {s : Sheet δ}
    (h : ∀ p ∈ s.preferences, ∀ v ∈ p.context, Value.ofJson v.toJson = v) :
    s.arranged .standing = s := by
  have hpatch : ∀ p ∈ s.preferences, p.arranged .standing = p := by
    intro p hp
    have hcontext : p.context.map (fun v => Value.ofJson v.toJson) = p.context := by
      cases hgiven : p.context with
      | none => rfl
      | some v => exact congrArg some (h p hp v hgiven)
    unfold PreferencesPatch.arranged PreferencesPatch.settled
    rw [hcontext]
    rfl
  have hpreferences : s.preferences.map (PreferencesPatch.arranged .standing) = s.preferences := by
    cases hgiven : s.preferences with
    | none => rfl
    | some p => exact congrArg some (hpatch p hgiven)
  have hrules : s.rules.map (RuleEntry.arranged .standing) = s.rules := List.map_id _
  have hkeys : s.keys.map (Order.arrange .standing) = s.keys := Option.map_id_apply ..
  unfold Sheet.arranged
  rw [hpreferences, hrules, hkeys]
  rfl

/-- What is written of a description is read to be it. -/
theorem read?_toSource {m : Manifest} (h : m.Lossless) : read? m.toJson.toSource = some m := by
  induction h with
  | @mk m htidy hcontexts _ ih =>
    have hsheet : Sheet.read? read? (Order.standing.source (m.sheet.toJson toJson)) =
        some ((m.sheet.arranged .standing).map id) :=
      Sheet.read?_toJson htidy fun child hchild =>
        ⟨by rw [toJson_eq, Sheet.toJson]; rfl, ih child hchild⟩
    rw [Sheet.arranged_standing hcontexts, Sheet.map_id] at hsheet
    rw [toJson_eq, Manifest.read?_eq]
    show (Sheet.read? read? (Order.standing.source (m.sheet.toJson toJson))).map Manifest.mk = _
    rw [hsheet]
    cases m
    rfl

/-- The text of a description, on one line or on several, is read to be the
description, in all its order. -/
theorem text_says_all {m : Manifest} (h : m.Lossless) (hnumbers : m.toJson.Legible)
    (hdepth : m.toJson.depth ≤ depthLimit) :
    (Json.read? m.toJson.compact).bind read? = some m ∧
    (Json.read? m.toJson.pretty).bind read? = some m := by
  have hread := read?_toSource h
  rw [read?_compact hnumbers hdepth, read?_pretty hnumbers hdepth]
  exact ⟨hread, hread⟩

/-- A rate in steps of a half, but for a quarter. -/
def rate : Manifest :=
  ⟨{ kind := "number", allow := [.float (Number.ofDecimal false 25 (-2))]
     rules := [
      { name := "multiple", args := [("base", .float (Number.ofDecimal false 5 (-1)))] }] }⟩

/-- What a term is depends on a sibling. -/
def term : Manifest :=
  ⟨{ kind := "alternatives"
     entries := [{
      reference := some { key := "kind", table := [(.string "open", .null)] }
      cases := [{ test := some ⟨{ kind := "string" }⟩, branch := some ⟨{ kind := "date" }⟩ }]
      otherwise := some ⟨{ kind := "any", flags := [("presence", .string "forbidden")] }⟩ }] }⟩

/-- A loan: members, flags and messages stand in an order of their own. -/
def loan : Manifest :=
  ⟨{ kind := "object"
     flags := [("unknown", .bool true), ("label", .string "loan"),
       ("default", .object [("a", .int 1), ("b", .null)])]
     preferences := some {
      stripUnknown := some ⟨true, false⟩
      context := some (.object [("market", .string "north")])
      messages := .ofList [("object.base", "no loan"), ("any.required", "missing \"loan\"")] }
     keys := some [("term", term), ("rate", rate),
      ("data", ⟨{ kind := "object", keys := some [] }⟩)]
     dependencies := [{ relation := .and, key := none, peers := ["term", "rate"] }]
     patterns := [{ regex := some "^x-", rule := ⟨{ kind := "any" }⟩ }] }⟩

theorem isTable_nil : IsTable [] := ⟨List.nodup_nil, List.forall_mem_nil _⟩

theorem lossless_leaf (kind : String) {flags : List (String × Json)} (h : IsTable flags) :
    Lossless ⟨{ kind := kind, flags := flags }⟩ := by
  refine ⟨⟨h, ?_, ?_, ?_, ?_, ?_, ?_, ?_, ?_, ?_, ?_⟩, ?_, ?_⟩ <;>
    simp [Manifest.inner, Sheet.inner]

theorem lossless_rate : rate.Lossless := by
  refine ⟨⟨?_, ?_, ?_, ?_, ?_, ?_, ?_, ?_, ?_, ?_, ?_⟩, ?_, ?_⟩ <;>
    simp [rate, IsTable, Members.Distinct, Members.keys, sorted, Manifest.inner, Sheet.inner]

theorem lossless_term : term.Lossless := by
  refine ⟨⟨?_, ?_, ?_, ?_, ?_, ?_, ?_, ?_, ?_, ?_, ?_⟩, ?_, ?_⟩
  case refine_13 =>
    have hforbidden : IsTable [("presence", .string "forbidden")] := by
      simp [IsTable, Members.Distinct, Members.keys, sorted]
    show ∀ child ∈ [Manifest.mk { kind := "string" }, ⟨{ kind := "date" }⟩,
      ⟨{ kind := "any", flags := [("presence", .string "forbidden")] }⟩], child.Lossless
    simp only [List.forall_mem_cons]
    exact ⟨lossless_leaf "string" isTable_nil, lossless_leaf "date" isTable_nil,
      lossless_leaf "any" hforbidden, List.forall_mem_nil _⟩
  all_goals simp [term, IsTable, Members.Distinct, Members.keys, sorted]

theorem lossless_loan : loan.Lossless := by
  refine ⟨⟨?_, ?_, ?_, ?_, ?_, ?_, ?_, ?_, ?_, ?_, ?_⟩, ?_, ?_⟩
  -- the children: all leaves but the empty table
  case refine_13 =>
    have hdata : Lossless ⟨{ kind := "object", keys := some [] }⟩ := by
      refine ⟨⟨isTable_nil, ?_, ?_, ?_, ?_, ?_, ?_, ?_, ?_, ?_, ?_⟩, ?_, ?_⟩ <;>
        simp [Members.Distinct, Members.keys, Manifest.inner, Sheet.inner]
    show ∀ child ∈ [term, rate, ⟨{ kind := "object", keys := some [] }⟩, ⟨{ kind := "any" }⟩],
      child.Lossless
    simp only [List.forall_mem_cons]
    exact ⟨lossless_term, lossless_rate, hdata, lossless_leaf "any" isTable_nil,
      List.forall_mem_nil _⟩
  case refine_1 =>
    have hdefault : Ascending [("a", .int 1), ("b", .null)] := by
      show List.Pairwise (· < ·) ["a", "b"]
      decide
    refine ⟨?_, ?_⟩
    · show (["unknown", "label", "default"] : List String).Nodup
      decide
    · show ∀ flag ∈ [("unknown", Json.bool true), ("label", .string "loan"),
        ("default", .object [("a", .int 1), ("b", .null)])], flag.2.sorted = flag.2
      simp [sorted, sortedMembers, sortMembers_of_ascending hdefault]
  case refine_2 =>
    intro p hp
    obtain rfl := Option.some.inj hp
    refine ⟨?_, ?_⟩
    · rintro ⟨⟩
    · intro v hv
      obtain rfl := Option.some.inj hv
      rfl
  case refine_12 =>
    intro p hp v hv
    obtain rfl := Option.some.inj hp
    obtain rfl := Option.some.inj hv
    rfl
  all_goals simp [loan, Members.Distinct, Members.keys]

theorem text_says_all_loan :
    (Json.read? loan.toJson.compact).bind read? = some loan ∧
    (Json.read? loan.toJson.pretty).bind read? = some loan := by
  have hnumbers : loan.toJson.isLegible = true := by decide +kernel
  exact text_says_all lossless_loan (legible_of_test _ hnumbers) (by decide +kernel)

end Conform.Manifest
