import Conform.Proofs.BuiltRegular

/-!
# What calls accept

Calls check more than a single table can say: a literal never stands for a pattern, a schema, a
function or the subject of an assertion; a subject goes into the context or at least two steps into
the value; an encoding is one of those known; and a conditional has a branch, with tests where its
condition is a reference and nowhere else (`Schema.Accepted`). The tables pass an argument that is
of the declared kind, and those that leave a parameter open (`Parameter.filled_iff`).

What can be said about arguments is in two layers. The tables of rules say, for each
parameter, which kind of argument it takes and whether it may be missing, and the check of a
rule goes through them. A missing argument is written as a literal for nothing, and the check
passes that where it should not, for parameters of a kind that no literal is of. Calls cannot
do it, because the functions through which they go take an argument of the right type. So what
calls accept is described with the argument being there (`Parameter.Filled`), and compared
with what the check passes.

The proof that calls keep it goes through the kinds of change that a call makes, as for any property
of nodes. Merging two nodes puts rules and forms together of which neither side was refused. That
marks do not matter is shown once, with the form and the rules under any change of what is inside.

Main statement: `Schema.accepted_of_made`, nothing that calls make falls short of that.
-/

namespace Conform

variable {σ τ : Type}

/-! ### Arguments -/

/-- The argument is there, and is what its parameter declares. -/
def Parameter.Filled (p : Parameter) : Argument σ → Prop
  | .literal v =>
    p.kind.isLiteral = true ∧ (p.optional = true ∧ v.isDefined = false ∨ p.kind.rejection? v = none)
  | .reference r => if p.kind = .subject then r.Deep else p.references = true
  | .pattern _ => p.kind = .pattern
  | .schema _ => p.kind = .schema
  | .function _ => p.kind = .function

/-- A literal where none can serve, or a subject that does not go deep enough. -/
def ArgumentKind.LeftOpen (kind : ArgumentKind) : Argument σ → Prop
  | .literal _ => kind.isLiteral = false
  | .reference r => kind = .subject ∧ ¬r.Deep
  | _ => False

/-- The tables pass what fills a parameter and what leaves it open, and nothing else. -/
theorem Parameter.filled_iff (p : Parameter) (arg : Argument σ) :
    p.Filled arg ↔ p.rejection? arg = none ∧ ¬p.kind.LeftOpen arg := by
  -- an argument of a kind of its own passes if that kind is declared
  have hpasses (kind : ArgumentKind) :
      p.kind = kind ↔
        (if p.kind = kind then none else some "has the wrong kind") = none ∧ ¬False := by
    by_cases hkind : p.kind = kind <;> simp [hkind]
  cases arg with
  | literal v =>
    have hrejection : p.rejection? (.literal v : Argument σ) = none ↔
        p.optional = true ∧ v.isDefined = false ∨ p.kind.rejection? v = none := by
      unfold rejection?
      dsimp only
      split
      next h => exact iff_of_true rfl (.inl (by simpa using h))
      next h => rw [or_iff_right (by simpa using h)]
    rw [hrejection]
    unfold Filled ArgumentKind.LeftOpen
    rw [Bool.not_eq_false, and_comm]
  | reference r =>
    unfold Filled rejection? ArgumentKind.LeftOpen
    dsimp only
    by_cases hsubject : p.kind = .subject
    · simp [hsubject]
    · by_cases hreferences : p.references = true <;> simp [hsubject, hreferences]
  | pattern _ => exact hpasses .pattern
  | schema _ => exact hpasses .schema
  | function _ => exact hpasses .function

/-- Checked arguments pass one by one. -/
theorem RuleSpec.passes_of_check {spec : RuleSpec} {args : List (Argument Schema)}
    (h : spec.check args = .ok ()) :
    List.Forall₂ (fun p arg => Parameter.rejection? p arg = none) spec.parameters args := by
  unfold check at h
  split at h
  next => exact absurd h (by simp)
  next hlength =>
    exact List.forall₂_iff_zip.mpr ⟨(Decidable.not_not.mp hlength).symm, fun hpair =>
      Build.rejection?_of_check h hpair⟩

/-- Checked arguments fill their parameters if they leave none open. -/
theorem RuleSpec.filled_of_check {spec : RuleSpec} {args : List (Argument Schema)}
    (h : spec.check args = .ok ()) :
    List.Forall₂ Parameter.Filled spec.parameters args ↔
      List.Forall₂ (fun kind arg => ¬ArgumentKind.LeftOpen kind arg) spec.kinds args := by
  have hpasses := passes_of_check h
  unfold kinds
  rw [List.forall₂_map_left_iff]
  constructor
  · exact List.Forall₂.imp fun p arg hfilled => ((p.filled_iff arg).mp hfilled).2
  · intro hopen
    rw [List.forall₂_iff_zip] at hpasses hopen ⊢
    exact ⟨hpasses.1, fun hpair => (Parameter.filled_iff _ _).mpr ⟨hpasses.2 hpair, hopen.2 hpair⟩⟩

/-! ### Nodes -/

/-- The type has the rule, and its arguments fill the parameters. -/
def Rule.Accepted (kind : Kind) (rule : Rule σ) : Prop :=
  ∃ spec, kind.rule? rule.name = some spec ∧ List.Forall₂ Parameter.Filled spec.parameters rule.args

/-- What calls demand of a form. -/
def Form.Accepted : Form σ → Prop
  | .alternatives f => ∀ entry ∈ f.entries, entry.Decides
  | .binary encoding => ∀ name ∈ encoding, name ∈ Schema.encodings
  | _ => True

/-- What calls demand of a node. -/
structure Schema.Accepted (s : Schema) : Prop where
  rules : ∀ rule ∈ s.node.rules, rule.Accepted s.kind
  form : s.node.form.Accepted

theorem Parameter.filled_map (f : σ → τ) (p : Parameter) (arg : Argument σ) :
    p.Filled (arg.map f) ↔ p.Filled arg := by
  cases arg <;> rfl

theorem Rule.accepted_map (f : σ → τ) (kind : Kind) (rule : Rule σ) :
    (rule.map f).Accepted kind ↔ rule.Accepted kind := by
  unfold Accepted Rule.map
  simp only [List.forall₂_map_right_iff, Parameter.filled_map]

theorem Match.decides_map (f : σ → τ) (entry : Match σ) :
    (entry.map f).Decides ↔ entry.Decides := by
  cases entry with
  | attempt s => rfl
  | conditional condition cases otherwise =>
    have htested : (condition.map f).isTested = condition.isTested := by cases condition <;> rfl
    unfold Match.map Decides Case.map
    simp [htested]

theorem Form.accepted_erase (form : Form Schema) :
    (form.map (Schema.erase false)).withoutCell.Accepted ↔ form.Accepted := by
  cases form with
  | alternatives f =>
    show (∀ entry ∈ f.entries.map (Match.map (Schema.erase false)), entry.Decides) ↔
      ∀ entry ∈ f.entries, entry.Decides
    simp only [List.forall_mem_map, Match.decides_map]
  | _ => rfl

/-- Forms of which neither side is refused make one that is not. -/
theorem Form.Accepted.merge {merge : Schema → Schema → Except SchemaError Schema}
    {a b form : Form Schema}
    (ha : a.Accepted) (hb : b.Accepted) (h : a.merge merge b = .ok form) : form.Accepted := by
  cases Schema.formsMerged_of_ok h with
  | target => exact ha
  | source => exact hb
  -- entries of alternatives are taken over from both sides
  | alternatives f g =>
    intro entry hentry
    rcases List.mem_append.mp hentry with hold | hnew
    · exact ha entry hold
    · exact hb entry hnew
  | binary f g =>
    cases g with
    | none => exact ha
    | some _ => exact hb
  | _ => trivial

namespace Schema

theorem accepted_bare (s : Schema) : s.bare.Accepted ↔ s.Accepted := by
  have hnode : s.bare.node = (s.node.map (erase false)).withoutCell := node_erase false s
  have hkind : s.bare.kind = s.kind := by
    unfold kind
    rw [hnode]
    exact s.node.form.kind_map_withoutCell _
  have hrules : (∀ rule ∈ s.bare.node.rules, rule.Accepted s.bare.kind) ↔
      ∀ rule ∈ s.node.rules, rule.Accepted s.kind := by
    rw [hkind, hnode]
    show (∀ rule ∈ s.node.rules.map (Rule.map (erase false)), rule.Accepted s.kind) ↔ _
    simp only [List.forall_mem_map, Rule.accepted_map]
  have hform : s.bare.node.form.Accepted ↔ s.node.form.Accepted := by
    rw [hnode]
    exact s.node.form.accepted_erase
  exact ⟨fun h => ⟨hrules.mp h.rules, hform.mp h.form⟩,
    fun h => ⟨hrules.mpr h.rules, hform.mpr h.form⟩⟩

/-! ### What calls keep -/

theorem Node.foldl_same {f : Node Schema → SetItem → Node Schema}
    (hf : ∀ n a, (f n a).form = n.form ∧ (f n a).rules = n.rules)
    (items : List SetItem) (n : Node Schema) :
    (items.foldl f n).form = n.form ∧ (items.foldl f n).rules = n.rules := by
  induction items generalizing n with
  | nil => exact ⟨rfl, rfl⟩
  | cons a rest ih => exact ⟨(ih (f n a)).1.trans (hf n a).1, (ih (f n a)).2.trans (hf n a).2⟩

namespace Accepted

variable {s t : Schema}

/-- A change of neither the form nor the rules. -/
theorem of_same (hs : s.Accepted) (hform : t.node.form = s.node.form)
    (hrules : t.node.rules = s.node.rules) : t.Accepted := by
  obtain ⟨haccepted, haccepted'⟩ := hs
  unfold kind at haccepted
  rw [← hform] at haccepted haccepted'
  exact ⟨hrules ▸ haccepted, haccepted'⟩

theorem foldl (hs : s.Accepted) {f : Node Schema → SetItem → Node Schema}
    (hf : ∀ n a, (f n a).form = n.form ∧ (f n a).rules = n.rules) (given : List SetItem) :
    (s.update fun n => given.foldl f n).Accepted := by
  obtain ⟨hform, hrules⟩ := Node.foldl_same hf given s.node
  exact hs.of_same hform hrules

/-- A change of the form alone. -/
theorem updateForm (hs : s.Accepted) {f : Form Schema → Form Schema}
    (hkind : ∀ form, (f form).kind = form.kind)
    (hform : ∀ form, form.Accepted → (f form).Accepted) : (s.updateForm f).Accepted := by
  refine ⟨fun rule hrule => ?_, hform _ hs.form⟩
  show rule.Accepted (f s.node.form).kind
  rw [hkind]
  exact hs.rules rule hrule

/-- A change to a form of the same type that nothing is demanded of, if it is a change. -/
theorem of_form (hs : s.Accepted) (hrules : t.node.rules = s.node.rules)
    (hkind : t.node.form.kind = s.node.form.kind)
    (hform : t.node.form = s.node.form ∨ t.node.form.Accepted) : t.Accepted := by
  refine ⟨fun rule hrule => ?_, ?_⟩
  · show rule.Accepted t.node.form.kind
    rw [hkind]
    exact hs.rules rule (hrules ▸ hrule)
  · rcases hform with hsame | haccepted
    · exact hsame ▸ hs.form
    · exact haccepted

theorem updateObject? (hs : s.Accepted)
    {f : ObjectForm Schema → Except SchemaError (ObjectForm Schema)}
    (h : s.updateObject? f = .ok t) : t.Accepted := by
  rcases updateObject?_ok h with rfl | ⟨o, g, ho, -, rfl⟩
  · exact hs
  · refine ⟨fun rule hrule => ?_, trivial⟩
    have hrule := hs.rules rule hrule
    unfold kind at hrule
    rw [ho] at hrule
    exact hrule

theorem addEntry (hs : s.Accepted) {entry : Match Schema} (hentry : entry.Decides) :
    (s.addEntry entry).Accepted := by
  unfold Schema.addEntry
  apply hs.updateForm
  · intro form
    cases form <;> rfl
  · intro form hform
    cases form with
    | alternatives f =>
      intro other hother
      rcases List.mem_append.mp hother with hold | hnew
      · exact hform other hold
      · exact List.mem_singleton.mp hnew ▸ hentry
    | _ => exact hform

theorem ruleCall (hs : s.Accepted) {call : RuleCall} (h : call.apply s = .ok t) : t.Accepted := by
  obtain ⟨name, args, hadd, hargs⟩ := ruleCall_ok h
  obtain ⟨n, hn, rfl⟩ := Attempt.map_ok hadd
  obtain ⟨spec, hspec, hcheck, rfl⟩ := addRule_ok hn
  refine ⟨fun rule hrule => ?_, hs.form⟩
  rcases mem_appendRule hrule with hold | rfl
  · exact hs.rules rule hold
  · refine ⟨spec, ?_, (RuleSpec.filled_of_check hcheck).mpr ?_⟩
    · rw [Kind.rule?_name hspec]
      exact hspec
    · refine (hargs spec hspec hcheck).imp fun k arg hgives hopen => ?_
      cases arg with
      | literal v =>
        have hliteral : k.isLiteral = true := hgives.1
        exact absurd (hliteral.symm.trans hopen) (by simp)
      | reference r => exact hopen.2 (hgives.2 hopen.1)
      | _ => exact hopen

/-- A call on one node keeps it one that calls accept. -/
theorem apply (hs : s.Accepted) {call : Call} (hsimple : call.isSimple = true)
    (h : call.apply s = .ok t) : t.Accepted := by
  cases call with
  | addWhen condition w => exact absurd hsimple (by simp [Call.isSimple])
  | under condition w => exact absurd hsimple (by simp [Call.isSimple])
  | concat source => exact absurd hsimple (by simp [Call.isSimple])
  | rule added => exact hs.ruleCall h
  | allow given | valid given =>
    obtain rfl := Except.ok.inj h
    exact (hs.foldl (f := Node.allow) (fun _ _ => ⟨rfl, rfl⟩) given).of_same rfl rfl
  | deny given =>
    obtain rfl := Except.ok.inj h
    exact hs.foldl (f := Node.deny) (fun _ _ => ⟨rfl, rfl⟩) given
  | keys children => exact hs.updateObject? h
  | rename added => exact hs.updateObject? h
  | attempt inner =>
    obtain rfl := Except.ok.inj h
    exact hs.addEntry trivial
  | encoding name =>
    obtain ⟨hknown, rfl⟩ := withEncoding_ok h
    have hname : ∀ known ∈ some name, known ∈ encodings := by
      intro known heq
      obtain rfl := Option.some.inj heq
      exact hknown
    obtain ⟨⟨form, _, _, _, _, _, _, _⟩, _⟩ := s
    cases form with
    | binary _ => exact hs.of_form rfl rfl (.inr hname)
    | _ => exact hs.of_form rfl rfl (.inl rfl)
  | replace source template =>
    obtain ⟨pattern, -, h⟩ := Attempt.bind_ok h
    obtain rfl := Except.ok.inj h
    obtain ⟨⟨form, _, _, _, _, _, _, _⟩, _⟩ := s
    cases form with
    | string _ => exact hs.of_form rfl rfl (.inr trivial)
    | _ => exact hs.of_form rfl rfl (.inl rfl)
  | keyPattern source inner =>
    obtain ⟨pattern, -, h⟩ := Attempt.bind_ok h
    obtain rfl := Except.ok.inj h
    obtain ⟨⟨form, _, _, _, _, _, _, _⟩, _⟩ := s
    cases form with
    | object _ => exact hs.of_form rfl rfl (.inr trivial)
    | _ => exact hs.of_form rfl rfl (.inl rfl)
  | truncate | allowUnsafe | format | truthy | falsy | sensitive | items | ordered | sparse | single
  | dependency | keySchema | unknown | once =>
    obtain rfl := Except.ok.inj h
    obtain ⟨⟨form, _, _, _, _, _, _, _⟩, _⟩ := s
    -- each of these changes the form of one type, and leaves those of the others
    cases form <;> first
      | exact hs.of_form rfl rfl (.inl rfl)
      | exact hs.of_form rfl rfl (.inr trivial)
  | _ =>
    obtain rfl := Except.ok.inj h
    exact hs.of_same rfl rfl

end Accepted

theorem accepted_plain {s : Schema} (h : s ∈ plain) : s.Accepted := by
  have hstart {form : Form Schema} (hform : form.Accepted) : (ofForm form).Accepted :=
    ⟨fun _ hrule => absurd hrule List.not_mem_nil, hform⟩
  have hunsaid : (ofForm (.string {})).Accepted := hstart trivial
  have hstring : string.Accepted :=
    hunsaid.foldl (f := Node.deny) (fun _ _ => ⟨rfl, rfl⟩) [.literal (.string "")]
  have hbinary : binary.Accepted := hstart fun _ hname => nomatch hname
  have halternatives : alternatives.Accepted :=
    hstart fun _ hentry => absurd hentry List.not_mem_nil
  simp only [plain, List.mem_cons, List.not_mem_nil, or_false] at h
  rcases h with rfl | rfl | rfl | rfl | rfl | rfl | rfl | rfl | rfl
  · exact hstart trivial
  · exact hstart trivial
  · exact hstart trivial
  · exact hstart trivial
  · exact hbinary
  · exact hstart trivial
  · exact hstart trivial
  · exact halternatives
  · exact hstring

/-- Calls keep schemas regular and accepted. -/
theorem accepted_kept : Kept fun s => s.Regular ∧ s.Accepted where
  plain := fun s h => ⟨regular_kept.plain s h, accepted_plain h⟩
  lazily := fun generator =>
    ⟨regular_kept.lazily generator, fun _ hrule => absurd hrule List.not_mem_nil, trivial⟩
  simple := fun hsimple hs hwritten h =>
    ⟨regular_kept.simple hsimple hs.1 hwritten h, hs.2.apply hsimple h⟩
  entry := fun hs hwritten hdecides =>
    ⟨regular_kept.entry hs.1 hwritten hdecides, hs.2.addEntry hdecides⟩
  under := by
    intro condition cases otherwise base hwritten hdecides
    refine ⟨regular_kept.under hwritten hdecides, fun _ hrule => absurd hrule List.not_mem_nil,
      fun entry hentry => ?_⟩
    exact List.mem_singleton.mp hentry ▸ hdecides
  merged := by
    intro merge form a b ha hb h
    obtain ⟨-, hkind, hkind'⟩ := ha.1.form.merge hb.1.form h
    -- a rule of the shared kind is one of the kind merged to, also where one side was any value
    have hrules {c : Schema} (hc : c.Accepted) (hkind : c.kind = .any ∨ c.kind = form.kind) :
        ∀ rule ∈ c.node.rules, rule.Accepted form.kind := by
      intro rule hrule
      obtain ⟨spec, hspec, hfilled⟩ := hc.rules rule hrule
      refine ⟨spec, ?_, hfilled⟩
      rcases hkind with hany | hsame
      · exact Kind.rule?_of_any (hany ▸ hspec) form.kind
      · exact hsame ▸ hspec
    refine ⟨regular_kept.merged ha.1 hb.1 h, fun rule hrule => ?_, ha.2.form.merge hb.2.form h⟩
    rcases mem_mergeRules hrule with hold | hnew
    · exact hrules ha.2 hkind rule hold
    · exact hrules hb.2 hkind' rule hnew
  marked := fun hs h =>
    ⟨regular_kept.marked hs.1 h, (accepted_bare _).mp (h ▸ (accepted_bare _).mpr hs.2)⟩

/-- Whatever calls alone make is accepted at every depth. -/
theorem accepted_of_made {s : Schema} (h : Made (fun _ => False) s) : s.Everywhere Accepted :=
  (h.everywhere accepted_kept fun _ hnone => hnone.elim).mono fun _ ht => ht.2

end Schema

end Conform
