import Mathlib.Data.List.Basic
import Conform.Proofs.Keeping

/-!
# Schemas with something left out

What a validation is to be told without: the defaults of a schema, or its words, that is labels,
messages and what is only said about it (`Omission`). `Schema.without` leaves such things out at
every depth, and two schemas differ in nothing else if they are the same without. The templates of
preferences and of a node's patch are words as well; a node whose patch has nothing but templates is
taken for one that has no patch.

Leaving out keeps the shape of a schema. So the cells that lazy schemas are given are the same
(`settleWithin_without`), and what a lazy node comes to without is what it comes to, without
(`Environment.force_without`).

Cells are given by a walk that draws numbers, and the numbers depend on how many lazy nodes came
before. The lemmas with `mapM_changed` say of each part of a schema that a change of the schemas
inside may be made before the walk or after it, provided that this holds of the walk over each of
them; the walk over a whole tree follows by induction on the levels. With no word about omissions in
them, these lemmas do for any change that keeps the shape.

A generator is asked by name, and what it makes goes into a workshop under the number of a cell. The
environment without makes the same schemas without, so a workshop and the same workshop without stay
beside one another whatever is run.
-/

namespace Conform

/-- What is left out of account. -/
structure Omission where
  defaults : Bool := false
  /-- Labels, messages and annotations. -/
  words : Bool := false

variable (o : Omission)

/-- The flags without the default, or without the label and the message. -/
def Flags.without (f : Flags) : Flags :=
  { f with
    default := if o.defaults then none else f.default
    label := if o.words then none else f.label
    message := if o.words then none else f.message }

/-- The patch without templates, where words are left out. -/
def PreferencesPatch.without (p : PreferencesPatch) : PreferencesPatch :=
  { p with messages := if o.words then .empty else p.messages }

/-- The preferences without templates, where words are left out. -/
def Preferences.without (p : Preferences) : Preferences :=
  { p with messages := if o.words then .empty else p.messages }

/-- Only the node itself; what is inside stays. -/
def Node.without {σ : Type} (n : Node σ) : Node σ :=
  { n with
    flags := n.flags.without o
    prefs := if o.words then some ((n.prefs.getD {}).without o) else n.prefs
    notes := if o.words then {} else n.notes }

/-- Where words stay, so do templates. -/
theorem Preferences.without_of_words {o : Omission} (ho : o.words = false) (p : Preferences) :
    p.without o = p := by
  unfold Preferences.without
  rw [ho]
  rfl

/-- A node's patch has its effect without templates as well. -/
theorem Preferences.merged_without {σ : Type} (p : Preferences) (n : Node σ) :
    (p.without o).merged (n.without o).prefs = (p.merged n.prefs).without o := by
  cases ho : o.words with
  | false =>
    have hpatch : (n.without o).prefs = n.prefs := by
      unfold Node.without
      dsimp only
      rw [ho]
      rfl
    rw [without_of_words ho, without_of_words ho, hpatch]
  | true =>
    have hpatch : (n.without o).prefs = some ((n.prefs.getD {}).without o) := by
      unfold Node.without
      dsimp only
      rw [ho]
      rfl
    rw [hpatch, merged_some]
    unfold Preferences.without PreferencesPatch.without
    rw [ho]
    cases n.prefs with
    | none => rfl
    | some patch =>
      rw [merged_some]
      rfl

/-! ### All the way down -/

namespace Schema

/-- The schema without, no deeper than `fuel`. -/
def withoutWithin : Nat → Schema → Schema
  | 0, s => s
  | fuel + 1, s => { node := (s.node.map (withoutWithin fuel)).without o, stamp := s.stamp }

/-- The schema without, all the way down. -/
def without (s : Schema) : Schema := s.withoutWithin o s.height

/-- Leaving out goes down to every schema inside. -/
theorem without_eq (s : Schema) :
    s.without o = { node := (s.node.map (without o)).without o, stamp := s.stamp } := by
  let step (f : Schema → Schema) (s : Schema) : Schema :=
    { node := (s.node.map f).without o, stamp := s.stamp }
  have hmade (fuel : Nat) (s : Schema) :
      s.withoutWithin o (fuel + 1) = step (withoutWithin o fuel) s := rfl
  have hstep (f g : Schema → Schema) (s : Schema) (h : ∀ child ∈ s.inner, f child = g child) :
      step f s = step g s :=
    congrArg (fun n : Node Schema => ({ node := n.without o, stamp := s.stamp } : Schema))
      (Node.map_congr h)
  exact made_eq hmade hstep s

variable {o} in
/-- Where words stay, so do labels. -/
theorem label_without (ho : o.words = false) (s : Schema) :
    (s.without o).node.flags.label = s.node.flags.label := by
  rw [without_eq]
  show (if o.words then none else s.node.flags.label) = _
  rw [ho]
  rfl

/-- The schemas inside are those that were inside, without. -/
theorem inner_without (s : Schema) : (s.without o).inner = s.inner.map (without o) := by
  have hinner : (s.node.map (without o)).inner = s.node.inner.map (without o) := Node.inner_map _ _
  rw [without_eq]
  exact hinner

/-- A schema is one level higher than the highest inside. -/
theorem height_eq (s : Schema) : s.height = (s.inner.map height).foldl max 0 + 1 := by
  have hattach : (s.inner.attach.map fun child => child.1.height) = s.inner.map height :=
    List.attach_map_val (f := height)
  rw [height.eq_def, ← hattach]

/-- Leaving out keeps the height. -/
theorem height_without (s : Schema) : (s.without o).height = s.height := by
  induction s using inner_induction with
  | h s ih =>
    rw [height_eq, height_eq s, inner_without, List.map_map]
    congr 2
    exact List.map_congr_left fun child hchild => ih child hchild

end Schema

/-! ### Changes of what is inside, before and after

Where a change `k` may be made before or after each schema inside is gone through, it may be made
before or after the whole is. -/

section Traverse

variable {σ τ σ' τ' : Type} {m : Type → Type} [Monad m] [LawfulMonad m]
  {f : σ → m τ} {f' : σ' → m τ'} {k : σ → σ'} {k' : τ → τ'}

/-- A list may be changed before or after a walk. -/
theorem mapM_changed_list {items : List σ} (h : ∀ s ∈ items, f' (k s) = k' <$> f s) :
    (items.map k).mapM f' = List.map k' <$> items.mapM f := by
  induction items with
  | nil => simp
  | cons s rest ih =>
    rw [List.map_cons, List.mapM_cons, List.mapM_cons, h s (List.mem_cons_self ..),
      ih fun t ht => h t (List.mem_cons_of_mem s ht)]
    simp only [map_eq_pure_bind, bind_assoc, pure_bind, List.map_cons]

/-- What need not be there may be changed before or after a walk. -/
theorem mapM_changed_option {s? : Option σ} (h : ∀ s ∈ s?.toList, f' (k s) = k' <$> f s) :
    (s?.map k).mapM f' = Option.map k' <$> s?.mapM f := by
  cases s? with
  | none => simp
  | some s =>
    show (some <$> f' (k s) : m (Option τ')) = Option.map k' <$> some <$> f s
    rw [h s (List.mem_singleton_self s)]
    simp

/-- The schema of an argument may be changed before or after a walk. -/
theorem Argument.mapM_changed {arg : Argument σ} (h : ∀ s ∈ arg.schema?, f' (k s) = k' <$> f s) :
    (arg.map k).mapM f' = Argument.map k' <$> arg.mapM f := by
  cases arg with
  | schema s =>
    show (do return Argument.schema (← f' (k s))) = _
    rw [h s rfl]
    simp [Argument.mapM, Argument.map]
  | _ => simp [Argument.mapM, Argument.map]

/-- The schemas of a rule may be changed before or after a walk. -/
theorem Rule.mapM_changed {rule : Rule σ} (h : ∀ s ∈ rule.schemas, f' (k s) = k' <$> f s) :
    (rule.map k).mapM f' = Rule.map k' <$> rule.mapM f := by
  have hargs : (rule.args.map (Argument.map k)).mapM (Argument.mapM f') =
      List.map (Argument.map k') <$> rule.args.mapM (Argument.mapM f) :=
    mapM_changed_list fun arg harg => Argument.mapM_changed fun s hs =>
      h s (List.mem_filterMap.mpr ⟨arg, harg, hs⟩)
  show (do
    return Rule.mk rule.name (← (rule.args.map (Argument.map k)).mapM (Argument.mapM f'))) = _
  rw [hargs]
  simp [Rule.mapM, Rule.map]

/-- The schemas of a pattern may be changed before or after a walk. -/
theorem KeyPattern.mapM_changed {p : KeyPattern σ} (h : ∀ s ∈ p.schemas, f' (k s) = k' <$> f s) :
    (p.map k).mapM f' = KeyPattern.map k' <$> p.mapM f := by
  have hmatcher : (p.matcher.map k).mapM f' = KeyMatcher.map k' <$> p.matcher.mapM f := by
    cases hcase : p.matcher with
    | pattern pattern => simp [KeyMatcher.mapM, KeyMatcher.map]
    | schema s =>
      have hs : s ∈ p.schemas :=
        List.mem_append_left _ (by rw [hcase]; exact List.mem_singleton_self s)
      show (do return KeyMatcher.schema (← f' (k s))) = _
      rw [h s hs]
      simp [KeyMatcher.mapM, KeyMatcher.map]
  have hschema : f' (k p.schema) = k' <$> f p.schema :=
    h p.schema (List.mem_append_right _ (List.mem_singleton_self _))
  dsimp only [KeyPattern.map, KeyPattern.mapM]
  rw [hmatcher, hschema]
  simp [KeyPattern.map]

omit [LawfulMonad m] in
/-- Children are gone through first, then patterns. -/
theorem ObjectForm.mapM_eq (f : σ → m τ) (form : ObjectForm σ) :
    form.mapM f = (do
      let keys ← form.keys.mapM fun children =>
      children.mapM fun child => do return (child.1, ← f child.2)
      let patterns ← form.patterns.mapM (KeyPattern.mapM f)
      return {
        keys, order := form.order, renames := form.renames, dependencies :=
        form.dependencies, patterns
        unknown := form.unknown }) := rfl

/-- The schemas of an object may be changed before or after a walk. -/
theorem ObjectForm.mapM_changed {form : ObjectForm σ}
    (h : ∀ s ∈ (Form.object form).schemas, f' (k s) = k' <$> f s) :
    (form.map k).mapM f' = ObjectForm.map k' <$> form.mapM f := by
  have hkeys : (form.keys.map (mapChildren k)).mapM
        (fun children => children.mapM fun child => do return (child.1, ← f' child.2)) =
      Option.map (mapChildren k') <$>
        form.keys.mapM fun children =>
        children.mapM fun child => do return (child.1, ← f child.2) := by
    refine mapM_changed_option fun children hchildren => mapM_changed_list fun child hchild => ?_
    have hschema : child.2 ∈ form.childSchemas := by
      unfold ObjectForm.childSchemas ObjectForm.children
      rw [Option.mem_toList.mp hchildren]
      exact List.mem_map_of_mem hchild
    rw [h child.2 (List.mem_append_left _ hschema)]
    simp
  have hpatterns : (form.patterns.map (KeyPattern.map k)).mapM (KeyPattern.mapM f') =
      List.map (KeyPattern.map k') <$> form.patterns.mapM (KeyPattern.mapM f) :=
    mapM_changed_list fun p hp => KeyPattern.mapM_changed fun s hs =>
      h s (List.mem_append_right _ (List.mem_flatMap.mpr ⟨p, hp, hs⟩))
  rw [ObjectForm.mapM_eq, ObjectForm.mapM_eq]
  dsimp only [ObjectForm.map]
  rw [hkeys, hpatterns]
  simp [ObjectForm.map]

/-- The schemas of a case may be changed before or after a walk. -/
theorem Case.mapM_changed {c : Case σ} (h : ∀ s ∈ c.schemas, f' (k s) = k' <$> f s) :
    (c.map k).mapM f' = Case.map k' <$> c.mapM f := by
  have htest : (c.test.map k).mapM f' = Option.map k' <$> c.test.mapM f :=
    mapM_changed_option fun s hs => h s (List.mem_append_left _ hs)
  have hbranch : (c.branch.map k).mapM f' = Option.map k' <$> c.branch.mapM f :=
    mapM_changed_option fun s hs => h s (List.mem_append_right _ hs)
  unfold Case.mapM
  dsimp only [Case.map]
  rw [htest, hbranch]
  simp [Case.map]

/-- The schemas of an entry may be changed before or after a walk. -/
theorem Match.mapM_changed {entry : Match σ} (h : ∀ s ∈ entry.schemas, f' (k s) = k' <$> f s) :
    (entry.map k).mapM f' = Match.map k' <$> entry.mapM f := by
  cases entry with
  | attempt s =>
    show (do return Match.attempt (← f' (k s))) = _
    rw [h s (List.mem_singleton_self s)]
    simp [Match.mapM, Match.map]
  | conditional condition cases otherwise =>
    have hcondition : (condition.map k).mapM f' = Condition.map k' <$> condition.mapM f := by
      cases condition with
      | reference r => simp [Condition.mapM, Condition.map]
      | schema s =>
        show (do return Condition.schema (← f' (k s))) = _
        rw [h s (List.mem_append_left _ (List.mem_append_left _ (List.mem_singleton_self s)))]
        simp [Condition.mapM, Condition.map]
    have hcases : (cases.map (Case.map k)).mapM (Case.mapM f') =
        List.map (Case.map k') <$> cases.mapM (Case.mapM f) :=
      mapM_changed_list fun c hc => Case.mapM_changed fun s hs =>
        h s (List.mem_append_left _ (List.mem_append_right _ (List.mem_flatMap.mpr ⟨c, hc, hs⟩)))
    have hotherwise : (otherwise.map k).mapM f' = Option.map k' <$> otherwise.mapM f :=
      mapM_changed_option fun s hs => h s (List.mem_append_right _ hs)
    dsimp only [Match.map, Match.mapM]
    rw [hcondition, hcases, hotherwise]
    simp [Match.map]

/-- The schemas of a form may be changed before or after a walk. -/
theorem Form.mapM_changed {form : Form σ} (h : ∀ s ∈ form.schemas, f' (k s) = k' <$> f s) :
    (form.map k).mapM f' = Form.map k' <$> form.mapM f := by
  cases form with
  -- parts change one by one, so the action on the parts commutes
  | alternatives form =>
    have hentries : (form.entries.map (Match.map k)).mapM (Match.mapM f') =
        List.map (Match.map k') <$> form.entries.mapM (Match.mapM f) :=
      mapM_changed_list fun entry hentry => Match.mapM_changed fun s hs =>
        h s (List.mem_append_left _ (List.mem_flatMap.mpr ⟨entry, hentry, hs⟩))
    have hbase : (form.base.map k).mapM f' = Option.map k' <$> form.base.mapM f :=
      mapM_changed_option fun s hs => h s (List.mem_append_right _ hs)
    dsimp only [Form.map, Form.mapM, AlternativesForm.map]
    rw [hentries, hbase]
    simp [Form.map, AlternativesForm.map]
  | array form =>
    have hitems : (form.items.map k).mapM f' = List.map k' <$> form.items.mapM f :=
      mapM_changed_list fun s hs => h s (List.mem_append_left _ hs)
    have hordered : (form.ordered.map k).mapM f' = List.map k' <$> form.ordered.mapM f :=
      mapM_changed_list fun s hs => h s (List.mem_append_right _ hs)
    dsimp only [Form.map, Form.mapM, ArrayForm.map]
    rw [hitems, hordered]
    simp [Form.map, ArrayForm.map]
  | object form =>
    dsimp only [Form.map, Form.mapM]
    rw [ObjectForm.mapM_changed h]
    simp [Form.map]
  | _ => simp [Form.mapM, Form.map]

/-- The schemas of a node may be changed before or after a walk. -/
theorem Node.mapM_changed {n : Node σ} (h : ∀ s ∈ n.inner, f' (k s) = k' <$> f s) :
    (n.map k).mapM f' = Node.map k' <$> n.mapM f := by
  have hform : (n.form.map k).mapM f' = Form.map k' <$> n.form.mapM f :=
    Form.mapM_changed fun s hs => h s (List.mem_append_right _ hs)
  have hempty : (n.empty.map k).mapM f' = Option.map k' <$> n.empty.mapM f :=
    mapM_changed_option fun s hs => h s (List.mem_append_left _ (List.mem_append_left _ hs))
  have hrules : (n.rules.map (Rule.map k)).mapM (Rule.mapM f') =
      List.map (Rule.map k') <$> n.rules.mapM (Rule.mapM f) :=
    mapM_changed_list fun rule hrule => Rule.mapM_changed fun s hs =>
      h s (List.mem_append_left _
        (List.mem_append_right _ (List.mem_flatMap.mpr ⟨rule, hrule, hs⟩)))
  unfold Node.mapM
  dsimp only [Node.map]
  rw [hform, hempty, hrules]
  simp [Node.map]

end Traverse

/-! ### Cells -/

namespace Schema

/-- Cells go by the shape of a schema. -/
theorem settleWithin_without (stamps : Bool) (fuel : Nat) (s : Schema) :
    (s.without o).settleWithin stamps fuel = without o <$> s.settleWithin stamps fuel := by
  induction fuel generalizing s with
  | zero => simp [settleWithin]
  | succ fuel ih =>
    obtain ⟨node, stamp⟩ := s
    -- the node inside first, then the cell
    have hnode : ((node.map (without o)).without o).mapM (settleWithin stamps fuel) =
        (fun n => (n.map (without o)).without o) <$> node.mapM (settleWithin stamps fuel) := by
      have hinside : (node.map (without o)).mapM (settleWithin stamps fuel) =
          Node.map (without o) <$> node.mapM (settleWithin stamps fuel) :=
        Node.mapM_changed fun t _ => ih t
      have hself (n : Node Schema) : (n.without o).mapM (settleWithin stamps fuel) =
          Node.without o <$> n.mapM (settleWithin stamps fuel) := by
        simp [Node.mapM, Node.without]
      rw [hself, hinside]
      simp
    have hcell (n : Node Schema) : furnishNode ((n.map (without o)).without o) =
        (fun n => (n.map (without o)).without o) <$> furnishNode n := by
      obtain ⟨form, _⟩ := n
      unfold furnishNode
      cases form with
      | lazy form =>
        dsimp only [Node.map, Node.without, Form.map]
        split <;> simp
      | _ => simp [Node.map, Node.without, Form.map]
    rw [without_eq]
    unfold settleWithin
    rw [hnode]
    simp only [map_eq_pure_bind, bind_assoc, pure_bind, hcell, without_eq]

/-- Cells are given to what is left as they are given to all. -/
theorem furnish_without (s : Schema) (n : Nat) :
    (s.without o).furnish.run n = ((s.furnish.run n).1.without o, (s.furnish.run n).2) := by
  unfold furnish
  rw [height_without, settleWithin_without]
  rfl

end Schema

/-! ### Lazy schemas -/

/-- The same functions, but what generators make is made without. -/
def Environment.without (env : Environment) : Environment :=
  { env with
      registry := { env.registry with
          generators := fun name => some fun used => (env.made name used).without o } }

/-- The schemas kept, without. -/
def Workshop.without (w : Workshop) : Workshop :=
  { w with cells := w.cells.map fun cell => (cell.1, cell.2.without o) }

/-- A look-up among changed values finds the changed value. -/
theorem lookup_changed {α β γ : Type} [BEq α] (f : β → γ) (entries : List (α × β)) (key : α) :
    (entries.map fun entry => (entry.1, f entry.2)).lookup key = (entries.lookup key).map f := by
  induction entries with
  | nil => rfl
  | cons entry rest ih =>
    rw [List.map_cons, List.lookup_cons, List.lookup_cons, ih]
    split <;> rfl

namespace Environment

variable (env : Environment) (w : Workshop)

/-- What is generated without is what is generated, without. -/
theorem generate_without (name : String) : ((env.without o).generate name).run (w.without o) =
    ((env.generate name).run w).map fun r => (r.1.without o, r.2.without o) := by
  have hmade (used : Nat) : (env.without o).made name used = (env.made name used).without o := rfl
  unfold generate
  simp only [hmade]
  show some (((Schema.furnish _).run _).1, Workshop.mk ((Schema.furnish _).run _).2 _ _) = _
  rw [Schema.furnish_without]
  rfl

/-- What a lazy node comes to without is what it comes to, without. -/
theorem force_without (form : LazyForm) : ((env.without o).force form).run (w.without o) =
    ((env.force form).run w).map fun r => (r.1.without o, r.2.without o) := by
  have hlook : (w.without o).cells.lookup form = (w.cells.lookup form).map (Schema.without o) :=
    lookup_changed (Schema.without o) w.cells form
  unfold force
  split
  · rw [StateT.run_bind, StateT.run_bind, StateT.run_get, StateT.run_get, pure_bind, pure_bind]
    dsimp only
    rw [hlook]
    cases w.cells.lookup form with
    | some kept => rfl
    | none =>
      dsimp only [Option.map_none]
      rw [StateT.run_bind, StateT.run_bind, generate_without]
      cases (env.generate form.generator).run w <;> rfl
  · exact generate_without o env w form.generator

end Environment

end Conform
