import Conform.Proofs.Built
import Conform.Proofs.RoundTrip

/-!
# What stands inside a sheet

`Sheet.map` changes the descriptions inside a sheet. What is written of the sheet is what is written
of them (`Sheet.toJson_map`), so a description is written sheet by sheet (`toJson_eq`), and sheets
of one node whose inner descriptions come out alike are alike (`Describe.node_agree`).

Sheets are parametric in the descriptions that stand in them, and so are the functions that write
them. `Sheet.map` is the functor of that parameter: it keeps composition and identity, and writing
is natural in it. That is shown for each kind of entry in which descriptions stand, for patterns,
cases and entries of alternatives, and then for the sheet.

It is used in both directions. A description is a sheet of descriptions, so `toJson_eq` unfolds the
writer by one level without a word about how it recurs, and an induction on the height of a
description can be made of a lemma on sheets. The other way, a node is described by describing what
is inside and putting the sheet together; so two ways of describing that agree on what is inside
agree on the node (`Describe.node_agree`), the rules apart, whose schemas are described as data.
-/

namespace Conform

open Json

namespace Manifest

variable {δ ε : Type} (f : δ → ε)

/-! ### Other descriptions in their place -/

def PatternEntry.map (p : PatternEntry δ) : PatternEntry ε :=
  { regex := p.regex, schema := p.schema.map f, rule := f p.rule }

def MatchEntry.map (m : MatchEntry δ) : MatchEntry ε :=
  { schema := m.schema.map f
    reference := m.reference
    condition := m.condition.map f
    cases := m.cases.map (Case.map f)
    otherwise := m.otherwise.map f }

/-- The sheet with other descriptions inside. -/
def Sheet.map (s : Sheet δ) : Sheet ε :=
  { s with
    empty := s.empty.map f
    keys := s.keys.map (mapChildren f)
    patterns := s.patterns.map (PatternEntry.map f)
    items := s.items.map f
    ordered := s.ordered.map f
    entries := s.entries.map (MatchEntry.map f)
    base := s.base.map f }

/-! ### What is written -/

theorem optionalMember_map {α β : Type} (change : α → β) (name : String) (o : Option α)
    (toJson : β → Json) :
    optionalMember name (o.map change) toJson = optionalMember name o (toJson ∘ change) := by
  cases o <;> rfl

theorem listMember_map {α β : Type} (change : α → β) (name : String) (items : List α)
    (toJson : β → Json) :
    listMember name (items.map change) toJson = listMember name items (toJson ∘ change) := by
  unfold listMember
  rw [List.isEmpty_map, List.map_map]

variable (inner : ε → Json)

theorem PatternEntry.toJson_map (p : PatternEntry δ) :
    (p.map f).toJson inner = p.toJson (inner ∘ f) := by
  unfold toJson map
  rw [optionalMember_map]
  rfl

theorem caseToJson_map (c : Case δ) : caseToJson inner (c.map f) = caseToJson (inner ∘ f) c := by
  unfold caseToJson Case.map
  rw [optionalMember_map, optionalMember_map]

theorem MatchEntry.toJson_map (m : MatchEntry δ) :
    (m.map f).toJson inner = m.toJson (inner ∘ f) := by
  unfold toJson map
  rw [optionalMember_map, optionalMember_map, optionalMember_map, listMember_map]
  congr 4
  exact funext (caseToJson_map f inner)

/-- What is written of a changed sheet is what is written of what is inside, changed. -/
theorem Sheet.toJson_map (s : Sheet δ) : (s.map f).toJson inner = s.toJson (inner ∘ f) := by
  have hpattern : PatternEntry.toJson inner ∘ PatternEntry.map f =
      PatternEntry.toJson (inner ∘ f) :=
    funext (PatternEntry.toJson_map f inner)
  have hentry : MatchEntry.toJson inner ∘ MatchEntry.map f = MatchEntry.toJson (inner ∘ f) :=
    funext (MatchEntry.toJson_map f inner)
  have hkeys : (fun children : List (String × ε) => Json.object (children.map fun child =>
      (child.1, inner child.2))) ∘ mapChildren f = fun children =>
        .object (children.map fun child =>
        (child.1, (inner ∘ f) child.2)) := by
    funext children
    show Json.object ((children.map _).map _) = _
    rw [List.map_map]
    rfl
  unfold toJson map
  dsimp only
  rw [optionalMember_map, optionalMember_map, optionalMember_map, listMember_map, listMember_map,
    listMember_map, listMember_map, hpattern, hentry, hkeys]

theorem Sheet.map_congr {s : Sheet δ} {f g : δ → ε} (h : ∀ d ∈ s.inner, f d = g d) :
    s.map f = s.map g := by
  have hempty : s.empty.map f = s.empty.map g :=
    Option.map_congr_toList fun d hd => h d (s.mem_inner (.empty hd))
  have hkeys : s.keys.map (mapChildren f) = s.keys.map (mapChildren g) := by
    cases hkeys : s.keys with
    | none => rfl
    | some children =>
      exact congrArg some
        (mapChildren_congr fun child hchild => h child.2 (s.mem_inner (.child hkeys hchild)))
  have hpatterns : s.patterns.map (PatternEntry.map f) = s.patterns.map (PatternEntry.map g) := by
    refine List.map_congr_left fun p hp => ?_
    have hin {d : δ} (hd : d ∈ p.inner) : f d = g d := h d (s.mem_inner (.pattern hp hd))
    have hschema : p.schema.map f = p.schema.map g :=
      Option.map_congr_toList fun d hd => hin (List.mem_append_left _ hd)
    have hrule : f p.rule = g p.rule := hin (List.mem_append_right _ (List.mem_singleton_self _))
    unfold PatternEntry.map
    rw [hschema, hrule]
  have hitems : s.items.map f = s.items.map g :=
    List.map_congr_left fun d hd => h d (s.mem_inner (.item hd))
  have hordered : s.ordered.map f = s.ordered.map g :=
    List.map_congr_left fun d hd => h d (s.mem_inner (.ordered hd))
  have hentries : s.entries.map (MatchEntry.map f) = s.entries.map (MatchEntry.map g) := by
    refine List.map_congr_left fun m hm => ?_
    have hin {d : δ} (hd : d ∈ m.inner) : f d = g d := h d (s.mem_inner (.entry hm hd))
    have hschema : m.schema.map f = m.schema.map g :=
      Option.map_congr_toList fun d hd => hin (m.mem_inner (.schema hd))
    have hcondition : m.condition.map f = m.condition.map g :=
      Option.map_congr_toList fun d hd => hin (m.mem_inner (.condition hd))
    have hcases : m.cases.map (Case.map f) = m.cases.map (Case.map g) :=
      List.map_congr_left fun c hc => Case.map_congr fun d hd => hin (m.mem_inner (.case hc hd))
    have hotherwise : m.otherwise.map f = m.otherwise.map g :=
      Option.map_congr_toList fun d hd => hin (m.mem_inner (.otherwise hd))
    unfold MatchEntry.map
    rw [hschema, hcondition, hcases, hotherwise]
  have hbase : s.base.map f = s.base.map g :=
    Option.map_congr_toList fun d hd => h d (s.mem_inner (.base hd))
  unfold map
  rw [hempty, hkeys, hpatterns, hitems, hordered, hentries, hbase]

theorem Sheet.map_id {δ : Type} (s : Sheet δ) : s.map id = s := by
  have hkeys : s.keys.map (mapChildren id) = s.keys := by
    have hchildren (children : List (String × δ)) : mapChildren id children = children :=
      List.map_id _
    rw [show (mapChildren id : List (String × δ) → _) = id from funext hchildren,
      Option.map_id_apply]
  have hpattern : (PatternEntry.map id : PatternEntry δ → _) = id := by
    funext p
    unfold PatternEntry.map
    rw [Option.map_id_apply]
    rfl
  have hentry : (MatchEntry.map id : MatchEntry δ → _) = id := by
    funext m
    have hcase : (Case.map id : Case δ → Case δ) = id := funext Case.map_id
    unfold MatchEntry.map
    rw [Option.map_id_apply, Option.map_id_apply, Option.map_id_apply, hcase, List.map_id]
    rfl
  unfold map
  rw [hkeys, hpattern, hentry, Option.map_id_apply, Option.map_id_apply, List.map_id,
    List.map_id, List.map_id, List.map_id]

/-- Writers that agree on what is inside write the sheet alike. -/
theorem Sheet.toJson_congr {s : Sheet δ} {f g : δ → Json} (h : ∀ d ∈ s.inner, f d = g d) :
    s.toJson f = s.toJson g := by
  have hsame (f : δ → Json) : s.toJson f = (s.map f).toJson id := (Sheet.toJson_map f id s).symm
  rw [hsame f, hsame g, Sheet.map_congr h]

theorem height_pos (m : Manifest) : 0 < m.height := by
  rw [height.eq_def]
  exact Nat.succ_pos _

/-- A description is written sheet by sheet. -/
theorem toJson_eq (m : Manifest) : m.toJson = m.sheet.toJson toJson := by
  have hsame (bound : Nat) : ∀ (m : Manifest) (a b : Nat), m.height ≤ bound →
      m.height ≤ a → m.height ≤ b → m.toJsonWithin a = m.toJsonWithin b := by
    induction bound with
    | zero =>
      intro m a b hbound
      have hpos := m.height_pos
      omega
    | succ bound ih =>
      intro m a b hbound ha hb
      have hpos := m.height_pos
      obtain ⟨a, rfl⟩ : ∃ k, a = k + 1 := ⟨a - 1, by omega⟩
      obtain ⟨b, rfl⟩ : ∃ k, b = k + 1 := ⟨b - 1, by omega⟩
      refine Sheet.toJson_congr fun child hchild => ?_
      have hlt : child.height < m.height := height_lt hchild
      exact ih child a b (by omega) (by omega) (by omega)
  obtain ⟨n, hn⟩ : ∃ n, m.height = n + 1 := ⟨m.height - 1, by have := m.height_pos; omega⟩
  unfold toJson
  rw [hn]
  refine Sheet.toJson_congr fun child hchild => ?_
  have hlt : child.height < m.height := height_lt hchild
  exact hsame n child n child.height (by omega) (by omega) (Nat.le_refl _)

end Manifest

/-! ### Sheets of one node -/

namespace Describe

open Manifest

variable {ε : Type} {f f' : Manifest → ε} {kids kids' : Schema → Manifest}

theorem pattern_agree {p : KeyPattern Schema} (h : ∀ s ∈ p.schemas, f (kids s) = f' (kids' s)) :
    (pattern kids p).map f = (pattern kids' p).map f' := by
  obtain ⟨matcher, schema⟩ := p
  have hrule : f (kids schema) = f' (kids' schema) :=
    h schema (List.mem_append_right _ (List.mem_singleton_self _))
  cases matcher with
  | pattern regex => exact congrArg (PatternEntry.mk (some regex.source) none) hrule
  | schema key =>
    have hkey : f (kids key) = f' (kids' key) :=
      h key (List.mem_append_left _ (List.mem_cons_self ..))
    show PatternEntry.mk none (some (f (kids key))) (f (kids schema)) = _
    rw [hkey, hrule]
    rfl

theorem option_agree {o : Option Schema} (h : ∀ s ∈ o.toList, f (kids s) = f' (kids' s)) :
    (o.map kids).map f = (o.map kids').map f' := by
  rw [Option.map_map, Option.map_map]
  exact Option.map_congr_toList h

theorem list_agree {items : List Schema} (h : ∀ s ∈ items, f (kids s) = f' (kids' s)) :
    (items.map kids).map f = (items.map kids').map f' := by
  rw [List.map_map, List.map_map]
  exact List.map_congr_left h

theorem entry_agree {m : Match Schema} (h : ∀ s ∈ m.schemas, f (kids s) = f' (kids' s)) :
    (entry kids m).map f = (entry kids' m).map f' := by
  cases m with
  | attempt s =>
    exact congrArg (fun d => ({ schema := some d } : MatchEntry ε))
      (h s (List.mem_singleton_self _))
  | conditional condition cases otherwise =>
    have hcondition : (condition.schema?.map kids).map f = (condition.schema?.map kids').map f' :=
      option_agree fun s hs => h s (List.mem_append_left _ (List.mem_append_left _ hs))
    have hcases : (cases.map (Case.map kids)).map (Case.map f) =
        (cases.map (Case.map kids')).map (Case.map f') := by
      rw [List.map_map, List.map_map]
      refine List.map_congr_left fun c hc => ?_
      have hin {s : Schema} (hs : s ∈ c.schemas) : f (kids s) = f' (kids' s) :=
        h s (List.mem_append_left _ (List.mem_append_right _ (List.mem_flatMap.mpr ⟨c, hc, hs⟩)))
      show Case.mk ((c.test.map kids).map f) ((c.branch.map kids).map f) = _
      rw [option_agree fun s hs => hin (List.mem_append_left _ hs),
        option_agree fun s hs => hin (List.mem_append_right _ hs)]
      rfl
    have hotherwise : (otherwise.map kids).map f = (otherwise.map kids').map f' :=
      option_agree fun s hs => h s (List.mem_append_right _ hs)
    show ({ reference := condition.reference?.map Reference.describe
            condition := (condition.schema?.map kids).map f
            cases := (cases.map (Case.map kids)).map (Case.map f)
            otherwise := (otherwise.map kids).map f } : MatchEntry ε) = _
    rw [hcondition, hcases, hotherwise]
    rfl

/-- Sheets of one node are the same, rules apart, if what is inside comes out the same. -/
theorem node_agree {n : Node Schema} (rules : List RuleEntry)
    (h : ∀ s ∈ n.empty.toList ++ n.form.schemas, f (kids s) = f' (kids' s)) :
    { (node kids n).map f with rules } = { (node kids' n).map f' with rules } := by
  have hempty : (n.empty.map kids).map f = (n.empty.map kids').map f' :=
    option_agree fun s hs => h s (List.mem_append_left _ hs)
  have hform {s : Schema} (hs : s ∈ n.form.schemas) : f (kids s) = f' (kids' s) :=
    h s (List.mem_append_right _ hs)
  obtain ⟨form, flags, empty, allowed, denied, old, prefs, notes⟩ := n
  -- each form fills in fields of its own
  unfold node
  cases form with
  | alternatives g =>
    have hentries : (g.entries.map (entry kids)).map (MatchEntry.map f) =
        (g.entries.map (entry kids')).map (MatchEntry.map f') := by
      rw [List.map_map, List.map_map]
      refine List.map_congr_left fun m hm => entry_agree fun s hs => hform ?_
      exact List.mem_append_left _ (List.mem_flatMap.mpr ⟨m, hm, hs⟩)
    have hbase : (g.base.map kids).map f = (g.base.map kids').map f' :=
      option_agree fun s hs => hform (List.mem_append_right _ hs)
    dsimp only [Describe.form, Sheet.map] at hempty ⊢
    rw [hempty, hentries, hbase]
    rfl
  | array g =>
    have hitems : (g.items.map kids).map f = (g.items.map kids').map f' :=
      list_agree fun s hs => hform (List.mem_append_left _ hs)
    have hordered : (g.ordered.map kids).map f = (g.ordered.map kids').map f' :=
      list_agree fun s hs => hform (List.mem_append_right _ hs)
    dsimp only [Describe.form, Sheet.map] at hempty ⊢
    rw [hempty, hitems, hordered]
    rfl
  | object g =>
    have hkeys : (g.keys.map fun children => children.map fun child => (child.1, kids child.2)).map
        (mapChildren f) =
        (g.keys.map fun children => children.map fun child => (child.1, kids' child.2)).map
        (mapChildren f') := by
      cases hchildren : g.keys with
      | none => rfl
      | some children =>
        refine congrArg some ?_
        unfold mapChildren
        rw [List.map_map, List.map_map]
        refine List.map_congr_left fun child hchild =>
          Prod.ext rfl (hform (List.mem_append_left _ ?_))
        unfold ObjectForm.childSchemas ObjectForm.children
        rw [hchildren]
        exact List.mem_map_of_mem hchild
    have hpatterns : (g.patterns.map (pattern kids)).map (PatternEntry.map f) =
        (g.patterns.map (pattern kids')).map (PatternEntry.map f') := by
      rw [List.map_map, List.map_map]
      refine List.map_congr_left fun p hp => pattern_agree fun s hs => hform ?_
      exact List.mem_append_right _ (List.mem_flatMap.mpr ⟨p, hp, hs⟩)
    dsimp only [Describe.form, Sheet.map] at hempty ⊢
    rw [hempty, hkeys, hpatterns]
    rfl
  | _ =>
    dsimp only [Describe.form, Sheet.map] at hempty ⊢
    rw [hempty]
    rfl

end Describe

end Conform
