import Conform.Proofs.Marks

/-!
# Giving marks

Giving stamps and cells changes nothing but stamps and cells: what is settled is, erased, what it
was before (`furnish_erase`, `settle_bare`). Numbers are drawn from a state, so what is shown of a
computation here is what it gives from any state (`Yields`).

A schema is numbered by a walk over its tree in the state monad. What such a walk yields is shown
by going down the same tree: returning and binding are two rules (`Yields.pure`, `Yields.bind`), a
list of schemas is a row of bindings, and each type that holds schemas has one lemma that hands
the claim from the schemas in it to itself. The claim is always that mapping a function over what
was settled gives what mapping another one over what there was gives; for the walk over schemas
the two are both erasing.

The walk counts the levels that it may still go down. Where none is left it returns the schema as it
was, which the claim allows as well, so nothing has to be known of how high the tree is.
-/

namespace Conform

/-- From any state, the result has the property, and the state does not go down. -/
def Yields {α : Type} (x : StateM Nat α) (P : α → Prop) : Prop :=
  ∀ n, P (x.run n).1 ∧ n ≤ (x.run n).2

namespace Yields

variable {α β : Type}

/-- What is returned is yielded. -/
theorem pure {a : α} {P : α → Prop} (h : P a) : Yields (Pure.pure a) P :=
    fun _ => ⟨h, Nat.le_refl _⟩

/-- Steps yield what their last step yields, from whatever the steps before yield. -/
theorem bind {x : StateM Nat α} {f : α → StateM Nat β} {P : α → Prop} {Q : β → Prop}
    (hx : Yields x P) (hf : ∀ a, P a → Yields (f a) Q) : Yields (x >>= f) Q := by
  intro n
  obtain ⟨hp, hle⟩ := hx n
  obtain ⟨hq, hle'⟩ := hf _ hp (x.run n).2
  exact ⟨hq, Nat.le_trans hle hle'⟩

/-- Less may be said of what is yielded. -/
theorem mono {x : StateM Nat α} {P Q : α → Prop} (h : Yields x P)
    (himp : ∀ a, P a → Q a) : Yields x Q :=
  fun n => ⟨himp _ (h n).1, (h n).2⟩

/-- A number is given to what has none. -/
theorem numbered (number : Option Nat) : Yields (Schema.numbered number) fun _ => True := by
  cases number with
  | some k => exact .pure trivial
  | none => exact fun n => ⟨trivial, Nat.le_succ n⟩

end Yields

section Traverse

variable {σ τ υ : Type} {f : σ → StateM Nat τ} {g : τ → υ} {h : σ → υ}

/-- A list of schemas is settled schema by schema. -/
theorem yields_list {items : List σ} (hf : ∀ s ∈ items, Yields (f s) fun t => g t = h s) :
    Yields (items.mapM f) fun items' => items'.map g = items.map h := by
  induction items with
  | nil =>
    rw [List.mapM_nil]
    exact .pure rfl
  | cons s rest ih =>
    have hrest := ih fun t ht => hf t (List.mem_cons_of_mem s ht)
    rw [List.mapM_cons]
    exact (hf s (List.mem_cons_self ..)).bind fun t ht => hrest.bind fun rest' hrest => .pure (by
      rw [List.map_cons, List.map_cons, ht, hrest])

/-- A schema that need not be there is settled if it is. -/
theorem yields_option {o : Option σ} (hf : ∀ s ∈ o.toList, Yields (f s) fun t => g t = h s) :
    Yields (o.mapM f) fun o' => o'.map g = o.map h := by
  cases o with
  | none => exact .pure rfl
  | some s =>
    refine (hf s (List.mem_singleton_self s)).bind fun t ht => .pure ?_
    show some (g t) = some (h s)
    rw [ht]

/-- An argument is settled by its schema. -/
theorem Argument.yields {arg : Argument σ}
    (hf : ∀ s ∈ arg.schema?, Yields (f s) fun t => g t = h s) :
    Yields (arg.mapM f) fun arg' => arg'.map g = arg.map h := by
  cases arg with
  | schema s =>
    refine (hf s rfl).bind fun t ht => .pure ?_
    show Argument.schema (g t) = Argument.schema (h s)
    rw [ht]
  | _ => exact .pure rfl

/-- A rule is settled by its arguments. -/
theorem Rule.yields {rule : Rule σ} (hf : ∀ s ∈ rule.schemas, Yields (f s) fun t => g t = h s) :
    Yields (rule.mapM f) fun rule' => rule'.map g = rule.map h := by
  have hargs : Yields (rule.args.mapM (Argument.mapM f)) fun args =>
      args.map (Argument.map g) = rule.args.map (Argument.map h) :=
    yields_list fun arg harg => Argument.yields fun s hs =>
      hf s (List.mem_filterMap.mpr ⟨arg, harg, hs⟩)
  refine hargs.bind fun args hargs => .pure ?_
  show Rule.mk rule.name (args.map _) = Rule.mk rule.name (rule.args.map _)
  rw [hargs]

/-- A matcher of keys is settled by its schema. -/
theorem KeyMatcher.yields {m : KeyMatcher σ}
    (hf : ∀ s ∈ m.schema?, Yields (f s) fun t => g t = h s) :
    Yields (m.mapM f) fun m' => m'.map g = m.map h := by
  cases m with
  | pattern p => exact .pure rfl
  | schema s =>
    refine (hf s rfl).bind fun t ht => .pure ?_
    show KeyMatcher.schema (g t) = KeyMatcher.schema (h s)
    rw [ht]

/-- A pattern of keys is settled by its schemas. -/
theorem KeyPattern.yields {p : KeyPattern σ}
    (hf : ∀ s ∈ p.schemas, Yields (f s) fun t => g t = h s) :
    Yields (p.mapM f) fun p' => p'.map g = p.map h := by
  have hmatcher : Yields (p.matcher.mapM f) fun m => m.map g = p.matcher.map h :=
    KeyMatcher.yields fun s hs => hf s (List.mem_append_left _ (Option.mem_toList.mpr hs))
  have hschema : Yields (f p.schema) fun t => g t = h p.schema :=
    hf p.schema (List.mem_append_right _ (List.mem_singleton_self _))
  refine hmatcher.bind fun m hm => hschema.bind fun t ht => .pure ?_
  show KeyPattern.mk (m.map g) (g t) = KeyPattern.mk (p.matcher.map h) (h p.schema)
  rw [hm, ht]

/-- The children, patterns and assertions of an object are settled one after another. -/
theorem ObjectForm.yields {form : ObjectForm σ}
    (hf : ∀ s ∈ (Form.object form).schemas, Yields (f s) fun t => g t = h s) :
    Yields (form.mapM f) fun form' => form'.map g = form.map h := by
  have hchild (children : List (String × σ)) (hchildren : form.keys = some children)
      (child : String × σ)
      (hin : child ∈ children) : Yields (do return (child.1, ← f child.2)) fun child' =>
        (child'.1, g child'.2) = (child.1, h child.2) := by
    have hschema : child.2 ∈ form.childSchemas := by
      unfold ObjectForm.childSchemas ObjectForm.children
      rw [hchildren]
      exact List.mem_map_of_mem hin
    refine (hf child.2 (List.mem_append_left _ hschema)).bind fun t ht => .pure ?_
    rw [ht]
  have hkeys : Yields
      (form.keys.mapM fun children => children.mapM fun child => do return (child.1, ← f child.2))
      fun keys => keys.map (mapChildren g) = form.keys.map (mapChildren h) :=
    yields_option fun children hchildren =>
      yields_list (hchild children (Option.mem_toList.mp hchildren))
  have hpatterns : Yields (form.patterns.mapM (KeyPattern.mapM f)) fun patterns =>
      patterns.map (KeyPattern.map g) = form.patterns.map (KeyPattern.map h) :=
    yields_list fun p hp => KeyPattern.yields fun s hs =>
      hf s (List.mem_append_right _ (List.mem_flatMap.mpr ⟨p, hp, hs⟩))
  refine hkeys.bind fun keys hkeys => hpatterns.bind fun patterns hpatterns => .pure ?_
  unfold ObjectForm.map
  dsimp only
  rw [hkeys, hpatterns]

/-- A condition is settled by its schema. -/
theorem Condition.yields {c : Condition σ} (hf : ∀ s ∈ c.schema?, Yields (f s) fun t => g t = h s) :
    Yields (c.mapM f) fun c' => c'.map g = c.map h := by
  cases c with
  | reference r => exact .pure rfl
  | schema s =>
    refine (hf s rfl).bind fun t ht => .pure ?_
    show Condition.schema (g t) = Condition.schema (h s)
    rw [ht]

/-- A case is settled by its schemas. -/
theorem Case.yields {c : Case σ} (hf : ∀ s ∈ c.schemas, Yields (f s) fun t => g t = h s) :
    Yields (c.mapM f) fun c' => c'.map g = c.map h := by
  have htest : Yields (c.test.mapM f) fun test => test.map g = c.test.map h :=
    yields_option fun s hs => hf s (List.mem_append_left _ hs)
  have hbranch : Yields (c.branch.mapM f) fun branch => branch.map g = c.branch.map h :=
    yields_option fun s hs => hf s (List.mem_append_right _ hs)
  refine htest.bind fun test htest => hbranch.bind fun branch hbranch => .pure ?_
  show Case.mk (test.map g) (branch.map g) = Case.mk (c.test.map h) (c.branch.map h)
  rw [htest, hbranch]

/-- An entry of alternatives is settled by its schemas. -/
theorem Match.yields {m : Match σ} (hf : ∀ s ∈ m.schemas, Yields (f s) fun t => g t = h s) :
    Yields (m.mapM f) fun m' => m'.map g = m.map h := by
  cases m with
  | attempt s =>
    refine (hf s (List.mem_singleton_self s)).bind fun t ht => .pure ?_
    show Match.attempt (g t) = Match.attempt (h s)
    rw [ht]
  | conditional condition cases otherwise =>
    have hcondition : Yields (condition.mapM f) fun c => c.map g = condition.map h :=
      Condition.yields fun s hs =>
        hf s (List.mem_append_left _ (List.mem_append_left _ (Option.mem_toList.mpr hs)))
    have hcases : Yields (cases.mapM (Case.mapM f)) fun cases' =>
        cases'.map (Case.map g) = cases.map (Case.map h) :=
      yields_list fun c hc => Case.yields fun s hs =>
        hf s (List.mem_append_left _ (List.mem_append_right _ (List.mem_flatMap.mpr ⟨c, hc, hs⟩)))
    have hotherwise : Yields (otherwise.mapM f) fun o => o.map g = otherwise.map h :=
      yields_option fun s hs => hf s (List.mem_append_right _ hs)
    refine hcondition.bind fun condition' hcondition => hcases.bind fun cases' hcases => ?_
    refine hotherwise.bind fun otherwise' hotherwise => .pure ?_
    show Match.conditional (condition'.map g) (cases'.map _) (otherwise'.map g) =
      Match.conditional (condition.map h) (cases.map _) (otherwise.map h)
    rw [hcondition, hcases, hotherwise]

/-- What is particular to a type is settled by the schemas in it. -/
theorem Form.yields {form : Form σ} (hf : ∀ s ∈ form.schemas, Yields (f s) fun t => g t = h s) :
    Yields (form.mapM f) fun form' => form'.map g = form.map h := by
  cases form with
  | alternatives form =>
    have hentries : Yields (form.entries.mapM (Match.mapM f)) fun entries =>
        entries.map (Match.map g) = form.entries.map (Match.map h) :=
      yields_list fun m hm => Match.yields fun s hs =>
        hf s (List.mem_append_left _ (List.mem_flatMap.mpr ⟨m, hm, hs⟩))
    have hbase : Yields (form.base.mapM f) fun base => base.map g = form.base.map h :=
      yields_option fun s hs => hf s (List.mem_append_right _ hs)
    -- the parts settle one after another
    refine hentries.bind fun entries hentries => hbase.bind fun base hbase => .pure ?_
    show Form.alternatives ⟨entries.map _, base.map g⟩ =
      Form.alternatives ⟨form.entries.map _, form.base.map h⟩
    rw [hentries, hbase]
  | array form =>
    have hitems : Yields (form.items.mapM f) fun items => items.map g = form.items.map h :=
      yields_list fun s hs => hf s (List.mem_append_left _ hs)
    have hordered : Yields (form.ordered.mapM f) fun ordered =>
        ordered.map g = form.ordered.map h :=
      yields_list fun s hs => hf s (List.mem_append_right _ hs)
    refine hitems.bind fun items hitems => hordered.bind fun ordered hordered => .pure ?_
    show Form.array ⟨items.map g, ordered.map g, _, _⟩ =
      Form.array ⟨form.items.map h, form.ordered.map h, _, _⟩
    rw [hitems, hordered]
  | object form =>
    refine (ObjectForm.yields hf).bind fun form' hform => .pure ?_
    show Form.object (form'.map g) = Form.object (form.map h)
    rw [hform]
  | _ => exact .pure rfl

/-- A change of what is inside, whose results are known from any state. -/
theorem Node.yields {n : Node σ} (hf : ∀ s ∈ n.inner, Yields (f s) fun t => g t = h s) :
    Yields (n.mapM f) fun n' => n'.map g = n.map h := by
  have hform : Yields (n.form.mapM f) fun form => form.map g = n.form.map h :=
    Form.yields fun s hs => hf s (List.mem_append_right _ hs)
  have hempty : Yields (n.empty.mapM f) fun empty => empty.map g = n.empty.map h :=
    yields_option fun s hs => hf s (List.mem_append_left _ (List.mem_append_left _ hs))
  have hrules : Yields (n.rules.mapM (Rule.mapM f)) fun rules =>
      rules.map (Rule.map g) = n.rules.map (Rule.map h) :=
    yields_list fun rule hrule => Rule.yields fun s hs =>
      hf s
        (List.mem_append_left _ (List.mem_append_right _ (List.mem_flatMap.mpr ⟨rule, hrule, hs⟩)))
  refine hform.bind fun form hform => hempty.bind fun empty hempty => ?_
  refine hrules.bind fun rules hrules => .pure ?_
  unfold Node.map
  dsimp only
  rw [hform, hempty, hrules]

end Traverse

namespace Schema

/-- Schemas are the same without marks if their nodes are, and if their stamps are
where these are kept. -/
theorem erase_congr {keep : Bool} {n n' : Node Schema} {stamp stamp' : Option Nat}
    (hnode : (n'.map (erase keep)).withoutCell = (n.map (erase keep)).withoutCell)
    (hstamp : keep = true → stamp' = stamp) :
    (Schema.mk n' stamp').erase keep = (Schema.mk n stamp).erase keep := by
  rw [erase_eq, erase_eq]
  dsimp only
  rw [hnode]
  cases keep with
  | false => rfl
  | true => rw [hstamp rfl]

/-- A number that is not wanted is left as it is. -/
theorem numberedIf_yields (wanted : Bool) (number : Option Nat) :
    Yields (numberedIf wanted number) fun number' => wanted = false → number' = number := by
  cases wanted with
  | true => exact (Yields.numbered number).mono fun _ _ h => absurd h (by simp)
  | false => exact .pure fun _ => rfl

/-- A node is given a cell and is else as before. -/
theorem furnishNode_yields (n : Node Schema) :
    Yields (furnishNode n) fun n' =>
    ∀ f : Schema → Schema, (n'.map f).withoutCell = (n.map f).withoutCell := by
  obtain ⟨form, _⟩ := n
  unfold furnishNode
  cases form with
  | lazy form =>
    dsimp only
    split
    next => exact (Yields.numbered form.cell).bind fun _ _ => .pure fun _ => rfl
    next => exact .pure fun _ => rfl
  | _ => exact .pure fun _ => rfl

/-- What is settled is, erased, what it was before. -/
theorem settleWithin_erase {stamps keep : Bool} (hkeep : keep = true → stamps = false) (fuel : Nat)
    (s : Schema) : Yields (s.settleWithin stamps fuel) fun t => t.erase keep = s.erase keep := by
  induction fuel generalizing s with
  | zero => exact .pure rfl
  | succ fuel ih =>
    obtain ⟨node, stamp⟩ := s
    refine (Node.yields fun t _ => ih t).bind fun node' hnode => ?_
    refine (numberedIf_yields stamps stamp).bind fun stamp' hstamp => ?_
    refine (furnishNode_yields node').bind fun node'' hcell => .pure ?_
    have hsame : (node'.map (erase keep)).withoutCell = (node.map (erase keep)).withoutCell :=
      congrArg Node.withoutCell hnode
    exact erase_congr ((hcell _).trans hsame) fun h => hstamp (hkeep h)

/-- A furnished schema is what it was but for cells. -/
theorem furnish_erase (s : Schema) (n : Nat) : (s.furnish.run n).1.erase true = s.erase true :=
  (settleWithin_erase (fun _ => rfl) s.height s n).1

/-- A settled schema is what it was but for stamps and cells. -/
theorem settle_bare (s : Schema) (n : Nat) : (s.settle.run n).1.bare = s.bare :=
  (settleWithin_erase (fun h => absurd h (by simp)) s.height s n).1

end Schema

end Conform
