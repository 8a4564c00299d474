import Conform.Proofs.BuiltRegular
import Conform.Proofs.Filed
import Conform.Proofs.OmissionNode
import Conform.Proofs.Rebuilt
import Conform.Proofs.Redescribed

/-!
# Schemas among the arguments of rules, rebuilt

What is built from the description of a schema has, in the place of every schema among the arguments
of its rules, that schema as it is filed. So its children stand in ascending order and are validated
in an order that was made from that one; whether the schema is left as it was can be read off it
(`Schema.filed_bare_iff`).

An argument is written as data. Data has its members sorted, so the children of objects in it come
back in ascending order, and so do flags, arguments and the codes of messages; of these only the
children are in an order that matters. The schema that comes back is made by `Schema.filed`, which
sorts the children at every depth and puts them in order anew. What describes the filed schema is
what describes the schema, up to sorting, so that the second time nothing is changed.

Building fills the places of arguments with what comes back of them (`rebuilt`), and everything else
comes back to the letter. Where the children ascend to begin with, filing changes no more than the
order of the codes in a table of messages. That order can be seen by registered functions only. So
such an argument accepts what it accepted, if no function asks for messages (`filed_judges`).

Main statement: `Schema.arguments_rebuilt`.
-/

namespace Conform

open Json Manifest

/-- But for its messages, a patch is what comes back of it if its context goes
through data unchanged. -/
theorem PreferencesPatch.without_arranged {p : PreferencesPatch} {order : Order}
    (hcontext : ∀ v ∈ p.context, Value.ofJson v.toJson = v) :
    (p.arranged order).without .ofWords = p.without .ofWords := by
  have hwords : (p.arranged order).without .ofWords = p.settled.without .ofWords := rfl
  rw [hwords, settled_of_context hcontext]

/-- Both outcomes give one value, and either both pass or neither does. -/
def Outcome.SameVerdict (o o' : Outcome) : Prop :=
  o'.value = o.value ∧ o'.strip = o.strip ∧ (o'.reports = [] ↔ o.reports = [])

theorem Outcome.Echoes.sameVerdict {o o' : Outcome} (h : Outcome.Echoes .ofWords o o') :
    o.SameVerdict o' := by
  refine ⟨h.value, h.strip, ?_⟩
  rw [← List.isEmpty_iff, ← List.isEmpty_iff, h.reports.isEmpty]

namespace Schema

variable {registry : Registry} {s : Schema}

/-! ### What comes back of an argument -/

/-- All that a description says of the node comes back to the letter. -/
structure Verbatim (registry : Registry) (s : Schema) : Prop where
  regular : s.Regular
  sayable : s.Sayable registry
  preferences : s.node.prefs.map PreferencesPatch.settled = s.node.prefs

theorem builds_verbatim : Builds registry (Verbatim registry) fun t s => t = s.bare := by
  intro make kids s hs hkids hargs
  have hmake : ∀ child ∈ s.node.empty.toList ++ s.node.form.schemas,
      Build.Remade kids make child child.bare := by
    intro child hchild
    obtain ⟨t, ht, rfl⟩ := hkids child hchild
    exact ⟨ht, fun peer => iff_of_eq (congrArg (peer ∈ ·) (child.siblingRefs_erase 1))⟩
  have hback : ∀ child ∈ s.node.rules.flatMap Rule.schemas,
      Build.ComesBack describe make child child.bare := by
    intro child hchild
    obtain ⟨t, ht, rfl⟩ := hargs child hchild
    exact ht
  have hsheet : { Describe.node kids s.node with rules := (Describe.node describe s.node).rules } =
      { Describe.node kids s.node with
          rules := s.node.rules.map (Describe.rule describe s.kind) } := by
    rw [Build.node_rules]
    rfl
  refine ⟨_, by rw [hsheet, Build.schema_remade hs.regular hs.sayable hmake hback], ?_⟩
  show _ = s.erase false
  rw [hs.preferences, erase_eq]
  rfl

/-- What describes a schema, written as data and read again, is built to be the
schema as it is filed. -/
theorem filed_comes_back (hregular : s.Everywhere Regular) (hsaid : s.Everywhere (Sayable registry))
    (hasked : s.Everywhere Askable) :
    ∃ m, Manifest.read? s.describe.toJson.sorted.toSource = some m ∧
      ∀ fuel, m.height ≤ fuel → Build.schemaWithin registry fuel m = .ok s.filed.bare := by
  have hverbatim : s.filed.Everywhere (Verbatim registry) :=
    everywhere_filed (fun t ht => ⟨ht.1.filed, ht.2.filed, t.settled_prefs_filed⟩)
      (hregular.and hsaid)
  have hneat : s.filed.Everywhere Neat := everywhere_filed (fun _ ht => ht.neat_filed) hasked
  obtain ⟨m, hread, hbuilt⟩ := builds_verbatim.comes_back (fun _ ht => ht.regular) hverbatim hneat
  rw [written_filed hasked] at hread
  refine ⟨m, hread, fun fuel hfuel => ?_⟩
  obtain ⟨t, ht, rfl⟩ := hbuilt fuel hfuel
  exact ht

/-! ### Rebuilding a schema -/

/-- What is built from the description of a schema no higher than `fuel`. -/
def rebuiltWithin : Nat → Schema → Schema
  | 0, s => s
  | fuel + 1, s =>
    { node := s.node.remade (rebuiltWithin fuel) fun argument => argument.filed.bare }

/-- What is built from the description: no marks, and filed schemas among the arguments of rules. -/
def rebuilt (s : Schema) : Schema := s.rebuiltWithin s.height

theorem rebuilt_eq (s : Schema) :
    s.rebuilt = { node := s.node.remade rebuilt fun argument => argument.filed.bare } := by
  let step (f : Schema → Schema) (s : Schema) : Schema :=
    { node := s.node.remade f fun argument => argument.filed.bare }
  have hmade (fuel : Nat) (s : Schema) :
      s.rebuiltWithin (fuel + 1) = step (rebuiltWithin fuel) s := rfl
  have hstep (f g : Schema → Schema) (s : Schema) (h : ∀ child ∈ s.inner, f child = g child) :
      step f s = step g s :=
    congrArg (fun n : Node Schema => ({ node := { n.withoutCell with rules := _ } } : Schema))
      (Node.map_congr h)
  exact made_eq hmade hstep s

/-- A rebuilt schema reads the siblings that the schema reads, if in another order. -/
theorem mem_siblingRefs_rebuilt (s : Schema) (levels : Nat) (peer : String) :
    peer ∈ s.rebuilt.siblingRefs levels ↔ peer ∈ s.siblingRefs levels := by
  induction s using inner_induction generalizing levels with
  | h s ih =>
    rw [rebuilt_eq]
    refine mem_siblingRefs_remade none (fun child hchild levels => ?_)
      (fun child _ levels => ?_) levels
    · exact ih child (List.mem_append_right _ hchild) levels
    · rw [bare, siblingRefs_erase]
      exact child.mem_siblingRefs_filed levels peer

/-- A schema that is described and built is rebuilt. -/
theorem build_rebuilt (hregular : s.Everywhere Regular) (hsaid : s.Everywhere (Sayable registry))
    (hasked : s.Everywhere fun t => ∀ child ∈ t.node.rules.flatMap Rule.schemas,
      child.Everywhere Askable) :
    s.describe.build registry = .ok s.rebuilt := by
  have hall (fuel : Nat) (hfuel : s.describe.height ≤ fuel) :
      Build.schemaWithin registry fuel s.describe = .ok s.rebuilt := by
    induction s using inner_induction generalizing fuel with
    | h s ih =>
      obtain ⟨k, rfl⟩ : ∃ k, fuel = k + 1 := ⟨fuel - 1, by have := s.describe.height_pos; omega⟩
      -- children of the form are rebuilt, schemas among arguments come back filed
      have hkids : ∀ child ∈ s.node.empty.toList ++ s.node.form.schemas,
          Build.Remade describe (Build.schemaWithin registry k) child child.rebuilt := by
        intro child hchild
        have hin := mem_inner_of_described hchild
        -- the child stands inside the description, so the fuel that is left is enough
        have hlt := height_describe_lt hchild
        refine ⟨?_, child.mem_siblingRefs_rebuilt 1⟩
        exact ih child hin (hregular.inner hin) (hsaid.inner hin) (hasked.inner hin) k (by omega)
      have hback : ∀ child ∈ s.node.rules.flatMap Rule.schemas,
          Build.ComesBack describe (Build.schemaWithin registry k) child child.filed.bare := by
        intro child hchild
        have hin := mem_inner_of_rules hchild
        obtain ⟨m, hread, hbuilt⟩ :=
          filed_comes_back (hregular.inner hin) (hsaid.inner hin) (hasked.self child hchild)
        have hlt := height_lt_of_read hregular.self hchild hread
        exact ⟨m, hread, hbuilt k (by omega)⟩
      show Build.schema registry (Build.schemaWithin registry k) s.describe.sheet = _
      have hrules : Describe.node describe s.node =
          { Describe.node describe s.node with
              rules := s.node.rules.map (Describe.rule describe s.kind) } :=
        congrArg (fun rules => { Describe.node describe s.node with rules })
          (Build.node_rules describe s.node)
      rw [sheet_describe, hrules,
        Build.schema_remade hregular.self hsaid.self hkids hback, rebuilt_eq]
  exact hall _ (Nat.le_refl _)

/-! ### What a filed schema judges -/

/-- Copies are filed as copies. -/
theorem Honest.filed (hs : s.Honest) : s.filed.Honest := by
  refine everywhere_filed (fun t ht form hform => ?_) hs
  rw [node_filed] at hform
  have hform : (t.node.form.map Schema.filed).filed = .array form := hform
  cases hcase : t.node.form with
  | array f =>
    rw [hcase] at hform
    obtain rfl := Form.array.inj hform
    intro first hfirst second hsecond hsame
    obtain ⟨a, ha, rfl⟩ := List.mem_map.mp hfirst
    obtain ⟨b, hb, rfl⟩ := List.mem_map.mp hsecond
    have hstamps : a.isSame b = true := by
      rw [filed_eq a, filed_eq b] at hsame
      exact hsame
    rw [bare_filed, bare_filed, ht f hcase a ha b hb hstamps]
  | _ =>
    rw [hcase] at hform
    exact absurd hform (by simp [Form.map, Form.filed])

/-- Filing an orderly schema changes no more than the order of the codes of messages. -/
theorem without_filed (hregular : s.Everywhere Regular) (hs : s.Everywhere Orderly) :
    s.filed.without .ofWords = s.without .ofWords := by
  induction s using inner_induction with
  | h s ih =>
    have ih (child : Schema) (hchild : child ∈ s.inner) :=
      ih child hchild (hregular.inner hchild) (hs.inner hchild)
    have hmap : s.node.map (without .ofWords ∘ filed) = s.node.map (without .ofWords) :=
      Node.map_congr fun child hchild => ih child hchild
    have hform : (s.node.map filed).filed.form = s.node.form.map filed := by
      rw [← node_filed]
      exact form_filed_of_keys hregular.self hs.self.keys
    have hprefs : ((s.node.map filed).filed.prefs.getD {}).without .ofWords =
        (s.node.prefs.getD {}).without .ofWords := by
      rw [show (s.node.map filed).filed.prefs =
        s.node.prefs.map (PreferencesPatch.arranged .ascending) from rfl]
      cases hpatch : s.node.prefs with
      | none => rfl
      | some p => exact PreferencesPatch.without_arranged (hs.self.contexts p hpatch)
    have hnode : (s.filed.node.map (without .ofWords)).without .ofWords =
        ((s.node.map filed).map (without .ofWords)).without .ofWords := by
      rw [node_filed]
      show ({ ((s.node.map filed).map (without .ofWords)).without .ofWords with
        form := (s.node.map filed).filed.form.map (without .ofWords)
        prefs := some (((s.node.map filed).filed.prefs.getD {}).without .ofWords) } :
          Node Schema) = _
      rw [hform, hprefs]
      rfl
    rw [without_eq, hnode, Node.map_map, hmap, without_eq _ s, filed_eq]

/-- A schema whose children ascend accepts what its filed copy accepts, whatever is made of it by
marking it. The order in which the codes of messages stand is seen by functions only, and only by
those that read messages. -/
theorem filed_judges {env : Environment} (hsteady : env.Steady) (hregular : s.Everywhere Regular)
    (hasked : s.Everywhere Askable) (horderly : s.Everywhere Orderly)
    (hwords : s.Everywhere CodesAscend ∨ env.Deaf .ofWords) (hs : s.Honest) {t : Schema}
    (hbare : t.bare = s.filed.bare) (ht : t.Honest) (fuel : Nat) (value : Value) (p : Position)
    (prefs : Preferences) :
    Matches env Outcome.SameVerdict (Check.within env fuel s value p prefs)
      (Check.within env fuel t value p prefs) := by
  rcases hwords with hcodes | hdeaf
  · -- nothing differs then but marks
    have hsame : t.bare = s.bare :=
      hbare.trans ((filed_bare_iff hregular hasked).mpr (horderly.and hcodes))
    refine (Check.check_congr hsteady fuel value p prefs hs ht hsame).mono fun o o' heq => ?_
    obtain rfl := heq
    exact ⟨rfl, rfl, Iff.rfl⟩
  · -- messages in another order are seen by no function, so the checks go by their own words
    have hself := Check.check_self hsteady fuel value p prefs s
    have hfiled := Check.check_congr hsteady fuel value p prefs hs.filed ht hbare
    have hadmits (t : Schema) : t.Admits .ofWords := fun hnever => absurd hnever (by decide)
    have hoff : prefs.Omits .ofWords := fun hnever => absurd hnever (by decide)
    intro w w' hw hw'
    have hechoes :=
      Check.within_echoes rfl hdeaf hdeaf (without_filed hregular horderly) (fun _ t _ => hadmits t)
      (fun _ t _ => hadmits t) rfl hoff hoff (rfl : w'.without .ofWords = _)
      (fun _ _ _ _ t _ => hadmits t) (fun _ _ _ _ t _ => hadmits t) fuel value p
    have hself := hself w w' hw hw'
    have hfiled := hfiled w' w' hw' hw'
    revert hself hechoes hfiled
    generalize (Check.within env fuel s value p prefs).run w = a
    generalize (Check.within env fuel s value p prefs).run w' = b
    generalize (Check.within env fuel s.filed value p prefs).run w' = c
    generalize (Check.within env fuel t value p prefs).run w' = d
    -- the schema, its copy by another workshop and the two filed ones give one verdict in turn
    intro hechoes hself hfiled
    cases hself with
    | none =>
      cases hechoes with
      | none =>
        cases hfiled with
        | none => exact .none
    | some hab =>
      cases hechoes with
      | some hbc =>
        cases hfiled with
        | some hcd =>
          obtain ⟨hsame, hsound, -⟩ := hab
          obtain ⟨hsame', -, hsound'⟩ := hcd
          exact .some ⟨hsame ▸ hsame' ▸ hbc.sameVerdict, hsound, hsound'⟩

/-! ### Arguments of rules -/

theorem keys_of_bare {t : Schema} {g : ObjectForm Schema} (h : t.bare.node.form = .object g) :
    ∃ f, t.node.form = .object f ∧ Members.keys g.children = Members.keys f.children := by
  rw [bare, node_erase] at h
  have h : (t.node.form.map bare).withoutCell = .object g := h
  cases hcase : t.node.form with
  | object f =>
    rw [hcase] at h
    obtain rfl := Form.object.inj h
    refine ⟨f, rfl, ?_⟩
    rw [ObjectForm.children_map, keys_mapChildren]
  | _ =>
    rw [hcase] at h
    exact absurd h (by simp [Form.map, Form.withoutCell])

/-- A schema that calls make is described and built with every schema among the arguments of its
rules filed: the children of objects inside ascend by their keys, in whatever order they were
declared. Such a schema comes back as it was exactly if that was the order already, at every depth,
and the preferences inside are such as data keeps. Then it accepts what it accepted. -/
theorem arguments_rebuilt {env : Environment} (hmade : Made (fun _ => False) s)
    (hsaid : s.Everywhere (Sayable env.registry))
    (hasked : s.Everywhere fun t => ∀ argument ∈ t.node.rules.flatMap Rule.schemas,
      argument.Everywhere fun inner => ∀ p ∈ inner.node.prefs, p.Askable) :
    s.describe.build env.registry = .ok s.rebuilt ∧
    s.rebuilt.node.rules = s.node.rules.map (Rule.map fun argument => argument.filed.bare) ∧
    ∀ argument ∈ s.node.rules.flatMap Rule.schemas,
      argument.filed.bare.Everywhere (fun t => ∀ f, t.node.form = .object f →
        (Members.keys f.children).Pairwise (· < ·)) ∧
      (argument.filed.bare = argument.bare ↔
        argument.Everywhere fun t => t.Orderly ∧ t.CodesAscend) ∧
      (env.Steady → argument.Everywhere Orderly →
        argument.Everywhere CodesAscend ∨ env.Deaf .ofWords →
        argument.Honest → ∀ t : Schema, t.bare = argument.filed.bare → t.Honest →
        ∀ (fuel : Nat) (value : Value) (p : Position) (prefs : Preferences),
          Matches env Outcome.SameVerdict (Check.within env fuel argument value p prefs)
            (Check.within env fuel t value p prefs)) := by
  have hregular : s.Everywhere Regular := hmade.everywhere regular_kept fun _ h => h.elim
  have haskable {t : Schema} (ht : t.Regular) (hprefs : ∀ p ∈ t.node.prefs, p.Askable) :
      t.Askable := by
    refine ⟨fun f hf => ?_, hprefs⟩
    have hform := ht.form
    rw [hf] at hform
    -- of a regular object all children are distinct, whatever else is asked
    exact ObjectForm.Regular.distinct hform
  have harguments : s.Everywhere fun t => ∀ argument ∈ t.node.rules.flatMap Rule.schemas,
      argument.Everywhere Askable := by
    intro t ht argument hargument inner hinner
    have hin : s.Within inner := .trans (.inner ht (mem_inner_of_rules hargument)) hinner
    exact haskable (hregular inner hin) (hasked t ht argument hargument inner hinner)
  refine ⟨build_rebuilt hregular hsaid
    harguments, by rw [rebuilt_eq]; rfl, fun argument hargument => ?_⟩
  have hargumentRegular := hregular.inner (mem_inner_of_rules hargument)
  have hargumentAsked := harguments.self argument hargument
  refine ⟨?_, filed_bare_iff hargumentRegular hargumentAsked, ?_⟩
  · refine everywhere_bare (fun t ht f hf => ?_)
      (everywhere_filed (fun _ ht => ht.neat_filed) hargumentAsked)
    obtain ⟨g, hg, hkeys⟩ := keys_of_bare hf
    rw [hkeys]
    exact ht.keys g hg
  · intro hsteady horderly hwords hhonest t hbare ht fuel value p prefs
    exact filed_judges hsteady hargumentRegular hargumentAsked horderly hwords hhonest hbare
      ht fuel value p prefs

/-- A purchase with its fields the other way round. -/
def receipt : Schema :=
  ofForm
    (.object { keys := some [("note", string), ("amount", amount)], order := ["note", "amount"] })

/-- Among the members there is a receipt, and there is a purchase. -/
def receipts : Schema :=
  { node := {
      form := .array {}
      rules := [⟨"has", [.schema receipt]⟩, ⟨"has", [.schema purchase]⟩] } }

theorem made_receipts : Made (fun _ => False) receipts := by
  have hreceipt : Made (fun _ => False) receipt :=
    made_fields (by decide) made_string made_amount siblingRefs_string siblingRefs_amount
  have hnone : ∀ r ∈ ([] : List Reference), r.Written := List.forall_mem_nil _
  have hone : Made (fun _ => False)
      { node := { form := .array {}, rules := [⟨"has", [.schema receipt]⟩] } } :=
    .call (.rule (.has receipt)) (.plain (by simp [plain]) : Made _ array)
      (List.forall_mem_singleton.mpr hreceipt) hnone rfl
  exact .call (.rule (.has purchase)) hone (List.forall_mem_singleton.mpr made_purchase) hnone rfl

theorem everywhere_receipt {P : Schema → Prop} (hreceipt : P receipt) (hamount : P amount)
    (hstring : P string) : receipt.Everywhere P :=
  everywhere_fields hreceipt (everywhere_leaf hstring rfl) (everywhere_leaf hamount rfl)

theorem everywhere_receipts {P : Schema → Prop} (hreceipts : P receipts)
    (hreceipt : receipt.Everywhere P)
    (hpurchase : purchase.Everywhere P) : receipts.Everywhere P := by
  refine everywhere_iff.mpr ⟨hreceipts, fun _ hchild => ?_⟩
  have hboth : _ ∈ [receipt, purchase] := hchild
  rcases List.mem_cons.mp hboth with rfl | hlast
  · exact hreceipt
  · obtain rfl := List.mem_singleton.mp hlast
    exact hpurchase

theorem sayable_receipts : receipts.Everywhere (Sayable ({} : Environment).registry) := by
  have hnone {α : Type} {Q : α → Prop} : ∀ a ∈ ([] : List α), Q a := List.forall_mem_nil _
  refine everywhere_receipts ⟨hnone, hnone, fun rule hrule arg harg => ?_, trivial, hnone⟩ ?_ ?_
  · have hboth : rule ∈ [⟨"has", [.schema receipt]⟩, ⟨"has", [.schema purchase]⟩] := hrule
    rcases List.mem_cons.mp hboth with rfl | hlast
    · obtain rfl := List.mem_singleton.mp harg
      trivial
    · obtain rfl := List.mem_singleton.mp hlast
      obtain rfl := List.mem_singleton.mp harg
      trivial
  · exact everywhere_receipt
      (describable_object _).sayable describable_amount.sayable describable_string.sayable
  · exact everywhere_purchase
      (describable_object _).sayable describable_amount.sayable describable_string.sayable

/-- There is no patch that could ask for what no description says. -/
theorem askable_receipts : receipts.Everywhere fun t =>
    ∀ argument ∈ t.node.rules.flatMap Rule.schemas,
    argument.Everywhere fun inner => ∀ p ∈ inner.node.prefs, p.Askable := by
  have hnoPatch {t : Schema} (ht : t.node.prefs = none) : ∀ p ∈ t.node.prefs, p.Askable := by
    rw [ht]
    rintro _ ⟨⟩
  have hnoArgument {t : Schema} (ht : t.node.rules.flatMap Rule.schemas = []) :
      ∀ argument ∈ t.node.rules.flatMap Rule.schemas, argument.Everywhere fun inner =>
        ∀ p ∈ inner.node.prefs, p.Askable := by
    rw [ht]
    exact List.forall_mem_nil _
  refine everywhere_receipts (fun argument hargument => ?_)
    (everywhere_receipt (hnoArgument rfl) (hnoArgument rfl) (hnoArgument rfl))
    (everywhere_purchase (hnoArgument rfl) (hnoArgument rfl) (hnoArgument rfl))
  have hboth : argument ∈ [receipt, purchase] := hargument
  rcases List.mem_cons.mp hboth with rfl | hlast
  · exact everywhere_receipt (hnoPatch rfl) (hnoPatch rfl) (hnoPatch rfl)
  · obtain rfl := List.mem_singleton.mp hlast
    exact everywhere_purchase (hnoPatch rfl) (hnoPatch rfl) (hnoPatch rfl)

theorem orderly_purchase : purchase.Everywhere Orderly := by
  have hnone {t : Schema} (ht : t.node.prefs = none) (p : PreferencesPatch)
      (hp : p ∈ t.node.prefs) : ∀ v ∈ p.context, Value.ofJson v.toJson = v := by
    rw [ht] at hp
    cases hp
  refine everywhere_purchase ⟨fun f hf => ?_, hnone rfl⟩ ⟨fun f hf => ?_, hnone rfl⟩
    ⟨fun f hf => ?_, hnone rfl⟩
  · obtain rfl := Form.object.inj hf
    have hascends : ["amount", "note"].Pairwise (· < ·) := by decide
    exact hascends
  · exact absurd hf (by simp [amount])
  · exact absurd hf (by simp [string, ofForm, update, Node.deny])

theorem codesAscend_purchase : purchase.Everywhere CodesAscend := by
  have hnone {t : Schema} (ht : t.node.prefs = none) : t.CodesAscend := by
    unfold CodesAscend
    rw [ht]
    rintro _ ⟨⟩
  exact everywhere_purchase (hnone rfl) (hnone rfl) (hnone rfl)

/-- The receipt comes back with its fields in ascending order, the purchase as it was. -/
theorem arguments_rebuilt_receipts :
    receipts.describe.build {} = .ok receipts.rebuilt ∧ receipt.filed.bare ≠ receipt.bare ∧
    purchase.filed.bare = purchase.bare ∧ ∀ value prefs, Matches {} Outcome.SameVerdict
      (Check.within {} 3 purchase value .root prefs)
        (Check.within {} 3 purchase.filed.bare value .root prefs) := by
  obtain ⟨hbuilt, -, harguments⟩ :=
    arguments_rebuilt made_receipts sayable_receipts askable_receipts
  obtain ⟨-, hreceipt, -⟩ := harguments receipt (List.mem_cons_self ..)
  obtain ⟨-, hpurchase, hjudges⟩ :=
    harguments purchase (List.mem_cons_of_mem _ (List.mem_singleton_self _))
  have hdescends : ¬ receipt.Orderly := by
    intro h
    have hascends : ["note", "amount"].Pairwise (· < ·) := h.keys _ rfl
    exact absurd hascends (by decide)
  refine ⟨hbuilt, fun h => hdescends (hreceipt.mp h).self.1,
    hpurchase.mpr (orderly_purchase.and codesAscend_purchase), fun value prefs => ?_⟩
  exact hjudges (fun _ _ => rfl) orderly_purchase (.inl codesAscend_purchase) honest_purchase _
    (erase_erase false false _) (honest_bare _) 3 value .root prefs

end Schema

end Conform
