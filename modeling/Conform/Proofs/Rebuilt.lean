import Conform.Proofs.RoundTrip
import Conform.Proofs.TruncationNode

/-!
# Schemas that were described and built again

A schema that is made by calls and mentions nothing that a description cannot say comes out
of its own description, marks apart. Whoever validates with the one or with the other gets
the same verdict, provided that a generator makes the same schema each time: the two schemas
share no cells, so either one uses the generators anew. A generator that counts its uses
tells the original from its copy.

There are two steps to this. That the rebuilt schema is the schema but for marks is the round trip
of descriptions: what is described of each part is built to that part, and parts that cannot be
described are excluded node by node (`Schema.Describable`). No schema may stand among the arguments
of rules here, since it would come back filed. That the two schemas have one verdict is then a
matter of marks, and marks make no difference where generators are steady (`Check.within_careful`).

That both conditions are needed is shown by a sample with a generator that makes another schema at
each use. Original and copy have cells of their own, so that each of them has the generator make a
schema, and the two are not the same.

Main statement: `Schema.described_and_built`.
-/

namespace Conform

namespace Schema

/-- Schemas that are the same but for marks come to one verdict. -/
theorem validate_congr {env : Environment} (hsteady : env.Steady) {s t : Schema} (hs : s.Honest)
    (ht : t.Honest) (h : t.bare = s.bare) (value : Value) (prefs : Preferences)
    (renderer : Messages.Renderer) :
    Matches env Eq (s.validate env value prefs renderer) (t.validate env value prefs renderer) := by
  have hcheck := Check.check_congr hsteady nestingLimit value .root prefs hs ht h
  refine hcheck.bind fun o o' ho => ?_
  obtain rfl : o = o' := ho
  exact .pure rfl

/-- Without stamps no two schemas are copies of one. -/
theorem honest_bare (s : Schema) : s.bare.Honest := by
  have hitems : ∀ t : Schema, True → ∀ form, t.bare.node.form = .array form → form.HonestItems := by
    intro t _ form hform
    rw [bare, node_erase] at hform
    have hform : (t.node.form.map (erase false)).withoutCell = .array form := hform
    cases ht : t.node.form with
    | array f =>
      rw [ht] at hform
      obtain rfl := Form.array.inj hform
      exact ArrayForm.honestItems_erase f
    | _ =>
      rw [ht] at hform
      exact absurd hform (by simp [Form.map, Form.withoutCell])
  exact everywhere_bare hitems (fun _ _ => trivial : s.Everywhere fun _ => True)

/-! ### Samples -/

/-- At least one, and five where nothing is said. -/
def amount : Schema :=
  { node := {
      form := .number false
      flags := { default := some (.value (.number 5)) }
      rules := [⟨"min", [.literal (.number 1)]⟩] } }

def purchase : Schema :=
  ofForm
    (.object { keys := some [("amount", amount), ("note", string)], order := ["amount", "note"] })

theorem made_string : Made (fun _ => False) string := .plain (by simp [plain])

theorem made_amount : Made (fun _ => False) amount := by
  have hnumber : Made (fun _ => False) number := .plain (by simp [plain])
  have hmin : Made (fun _ => False) { node := {
      form := .number false, rules := [⟨"min", [.literal (.number 1)]⟩] } } :=
    hnumber.extended (.rule (.limit "min" (by decide) (.literal (.number 1)))) rfl rfl rfl
  exact hmin.extended (.default (.value (.number 5))) rfl rfl rfl

/-- Two children, neither of which refers to the other, stay in the order of their declaration. -/
theorem made_fields {k l : String} (hne : k ≠ l) {a b : Schema} (ha : Made (fun _ => False) a)
    (hb : Made (fun _ => False) b) (hk : a.siblingRefs 1 = []) (hl : b.siblingRefs 1 = []) :
    Made (fun _ => False)
      (ofForm (.object { keys := some [(k, a), (l, b)], order := [k, l] })) := by
  have hgraph : ObjectForm.graph [(k, a), (l, b)] = ⟨[k, l], []⟩ := by
    unfold ObjectForm.graph
    simp [hk, hl, KeyGraph.addKey, hne.symm]
  have hset : ObjectForm.setChildren {} [(k, a), (l, b)] =
      .ok { keys := some [(k, a), (l, b)], order := [k, l] } := by
    have hall : Members.insertAll (ObjectForm.children {}) [(k, a), (l, b)] = [(k, a), (l, b)] :=
      Members.insertAll_of_distinct (List.nodup_cons.mpr ⟨by simp [hne], List.nodup_singleton l⟩)
    unfold ObjectForm.setChildren
    dsimp only
    rw [hall, hgraph]
    rfl
  refine .call (.keys [(k, a), (l, b)]) (.plain (by simp [plain]) : Made _ object) ?_
    (List.forall_mem_nil _) ?_
  · intro inner hin
    have hboth : inner ∈ [a, b] := hin
    rcases List.mem_cons.mp hboth with rfl | hin
    · exact ha
    · obtain rfl := List.mem_singleton.mp hin
      exact hb
  · show (ObjectForm.setChildren {} _ >>= _) = _
    rw [hset]
    rfl

theorem siblingRefs_amount : amount.siblingRefs 1 = [] := by
  rw [siblingRefs_eq]
  rfl

theorem siblingRefs_string : string.siblingRefs 1 = [] := by
  rw [siblingRefs_eq]
  rfl

theorem made_purchase : Made (fun _ => False) purchase :=
  made_fields (by decide) made_amount made_string siblingRefs_amount siblingRefs_string

/-- With nothing inside, everywhere is here. -/
theorem everywhere_leaf {P : Schema → Prop} {s : Schema} (hs : P s) (hinner : s.inner = []) :
    s.Everywhere P := by
  refine everywhere_iff.mpr ⟨hs, ?_⟩
  rw [hinner]
  exact List.forall_mem_nil _

theorem everywhere_fields {P : Schema → Prop} {k l : String} {a b : Schema} {order : List String}
    (hfields : P (ofForm (.object { keys := some [(k, a), (l, b)], order }))) (ha : a.Everywhere P)
    (hb : b.Everywhere P) :
    (ofForm (.object { keys := some [(k, a), (l, b)], order })).Everywhere P := by
  refine everywhere_iff.mpr ⟨hfields, fun _ hchild => ?_⟩
  have hboth : _ ∈ [a, b] := hchild
  rcases List.mem_cons.mp hboth with rfl | hlast
  · exact ha
  · obtain rfl := List.mem_singleton.mp hlast
    exact hb

theorem everywhere_purchase {P : Schema → Prop} (hpurchase : P purchase) (hamount : P amount)
    (hstring : P string) : purchase.Everywhere P :=
  everywhere_fields hpurchase (everywhere_leaf hamount rfl) (everywhere_leaf hstring rfl)

theorem describable_string : string.Describable {} := by
  have hnone {α : Type} {Q : α → Prop} : ∀ a ∈ ([] : List α), Q a := List.forall_mem_nil _
  refine ⟨fun item hitem => ?_, hnone, hnone, hnone, trivial, hnone⟩
  obtain rfl := List.mem_singleton.mp hitem
  rfl

theorem describable_amount : amount.Describable {} := by
  have hnone {α : Type} {Q : α → Prop} : ∀ a ∈ ([] : List α), Q a := List.forall_mem_nil _
  refine ⟨hnone, fun d hd => ?_, fun rule hrule => ?_,
    fun rule hrule arg harg => ?_, trivial, hnone⟩
  · obtain rfl := List.mem_singleton.mp hd
    rfl
  · obtain rfl := List.mem_singleton.mp hrule
    decide
  · obtain rfl := List.mem_singleton.mp hrule
    obtain rfl := List.mem_singleton.mp harg
    rfl

/-- An object says nothing but its children. -/
theorem describable_object (form : ObjectForm Schema) : (ofForm (.object form)).Describable {} := by
  have hnone {α : Type} {Q : α → Prop} : ∀ a ∈ ([] : List α), Q a := List.forall_mem_nil _
  exact ⟨hnone, hnone, hnone, hnone, trivial, hnone⟩

theorem describable_purchase : purchase.Everywhere (Describable {}) :=
  everywhere_purchase (describable_object _) describable_amount describable_string

/-- There is no array that could have two members alike. -/
theorem honest_purchase : purchase.Honest := by
  refine everywhere_purchase (fun form h => ?_) (fun form h => ?_) (fun form h => ?_)
  · exact absurd h (by simp [purchase, ofForm])
  · exact absurd h (by simp [amount])
  · exact absurd h (by simp [string, ofForm, update, Node.deny])

/-- A schema that the counting generator makes, kept in one cell or another. -/
def countedOnce (cell : Nat) : Schema :=
  { node := { form := .lazy { generator := "counted", cell := some cell } }, stamp := some cell }

theorem bare_countedOnce (cell : Nat) : (countedOnce cell).bare = lazily "counted" := by
  rw [bare, erase_eq]
  rfl

/-! ### The rebuilt schema is the schema -/

/-- The description of what calls make is built again, and what is built is the same but for marks;
with steady generators it judges every value as the original does. -/
theorem described_and_built {env : Environment} {s : Schema} (hmade : Made (fun _ => False) s)
    (hd : s.Everywhere (Describable env.registry)) :
    ∃ t, s.describe.build env.registry = .ok t ∧ t = s.bare ∧
      (env.Steady → s.Honest → ∀ u : Schema, u.bare = t.bare → u.Honest →
        ∀ (value : Value) (prefs : Preferences) (renderer : Messages.Renderer),
          Matches env Eq (s.validate env value prefs renderer)
            (u.validate env value prefs renderer)) := by
  have hregular : s.Everywhere Regular := hmade.everywhere regular_kept fun _ h => h.elim
  refine ⟨s.bare, build_describe hregular hd, rfl, ?_⟩
  intro hsteady hs u hu hhonest value prefs renderer
  have hbare : u.bare = s.bare := hu.trans (erase_erase false false s)
  exact validate_congr hsteady hs hhonest hbare value prefs renderer

theorem described_and_built_purchase : ∃ t, purchase.describe.build {} = .ok t ∧ t = purchase.bare ∧
    ∀ value prefs renderer, Matches {} Eq (purchase.validate {} value prefs renderer)
      (t.validate {} value prefs renderer) := by
  have hdescribable : purchase.Everywhere (Describable ({} : Environment).registry) :=
    describable_purchase
  obtain ⟨t, hbuild, hbare, hsame⟩ := described_and_built made_purchase hdescribable
  have hrebuilt : t.Honest := hbare ▸ honest_bare purchase
  exact ⟨t, hbuild, hbare, hsame (fun _ _ => rfl) honest_purchase t rfl hrebuilt⟩

/-- A generator that counts its uses tells a schema from the one built from its description: each of
them has the generator make a schema of its own. -/
theorem described_and_built_restless :
    Made (fun _ => False) (countedOnce 0) ∧
    (countedOnce 0).Everywhere (Describable restless.registry) ∧
    (countedOnce 0).describe.build restless.registry = .ok (countedOnce 1).bare ∧
    ((do
      let verdict ← (countedOnce 0).validate restless (.number 1)
      let rebuilt ← (countedOnce 1).validate restless (.number 1)
      return (verdict.isOk, rebuilt.isOk) : Run (Bool × Bool)).run {}).map (·.1) =
        some (true, false) := by
  have hmade : Made (fun _ => False) (countedOnce 0) := by
    refine .marked (.lazily "counted") ?_
    rw [bare_countedOnce, ← bare_countedOnce 0]
    exact (erase_erase false false _).symm
  have hnone {α : Type} {Q : α → Prop} : ∀ a ∈ ([] : List α), Q a := List.forall_mem_nil _
  have hd : (countedOnce 0).Everywhere (Describable restless.registry) :=
    everywhere_leaf ⟨hnone, hnone, hnone, hnone, rfl, hnone⟩ rfl
  have hbuild : (countedOnce 0).describe.build restless.registry = .ok (countedOnce 1).bare := by
    rw [build_describe (hmade.everywhere regular_kept fun _ h => h.elim) hd,
      bare_countedOnce, bare_countedOnce]
  exact ⟨hmade, hd, hbuild, by decide +kernel⟩

end Schema

end Conform
