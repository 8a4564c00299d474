import Conform.Proofs.Abreast
import Conform.Proofs.Omissions

/-!
# Steps that what is left out does not bear on

A check by a schema and one by the schema without words may report differently, in other words
and fewer or more of them, but they report both or neither (`Omission.Echoes`), so they pass and
fail together. Without defaults the reports are the very same, provided that the preferences
have switched defaults off.

Both comparisons are one: what is left out is a parameter (`Omission`), and the relations say
what may differ under it. `Omission.Echoes` relates lists of reports, `Omission.Agrees` steps
that end in a value or a report, and `Outcome.Echoes` what a node comes to. Where words stay,
all three are equality of reports, which is why a lemma about one report asks for the equation
only in that case (`Echoes.one`).

Here are the steps of a node that check no inner schema. What they need to know is that functions
read no templates (`Environment.Deaf`), where words are left out, and that defaults are off, where
those are (`Site.Omits`). They come in the order in which the other modules use them: how reports
echo each other, the finish with its default, its failover and its own message, presence and the
sets of values, conversion, the checks of the types that look at the value alone, their rules, and
how the arguments of rules resolve.
-/

namespace Conform

/-! ### Reports -/

namespace Omission

variable {o : Omission}

/-- Both are reports of a failure or neither is; where words stay, they are the same. -/
structure Echoes (o : Omission) (xs ys : List Report) : Prop where
  isEmpty : ys.isEmpty = xs.isEmpty
  same : o.words = false → ys = xs

namespace Echoes

variable {xs ys xs' ys' : List Report}

/-- The same reports echo each other. -/
theorem refl (xs : List Report) : o.Echoes xs xs := ⟨rfl, fun _ => rfl⟩

/-- One report echoes another; they may differ only where words are left out. -/
theorem one {r r' : Report} (h : o.words = false → r' = r) : o.Echoes [r] [r'] :=
  ⟨rfl, fun ho => by rw [h ho]⟩

/-- What is reported first echoes, and so does what is reported then. -/
theorem append (h : o.Echoes xs ys) (h' : o.Echoes xs' ys') : o.Echoes (xs ++ xs') (ys ++ ys') := by
  refine ⟨?_, fun ho => ?_⟩
  · cases xs with
    | nil =>
      rw [List.isEmpty_iff.mp h.isEmpty]
      exact h'.isEmpty
    | cons first rest =>
      obtain ⟨first', rest', hys⟩ :=
        List.exists_cons_of_ne_nil (List.isEmpty_eq_false_iff.mp h.isEmpty)
      rw [hys]
      rfl
  · rw [h.same ho, h'.same ho]

/-- Two failures. -/
theorem of_ne_nil (hx : xs ≠ []) (hy : ys ≠ []) (h : o.words = false → ys = xs) :
    o.Echoes xs ys := by
  refine ⟨?_, h⟩
  rw [List.isEmpty_eq_false_iff.mpr hx, List.isEmpty_eq_false_iff.mpr hy]

/-- If there are reports, there are reports without what is left out. -/
theorem ne_nil (h : o.Echoes xs ys) (hx : xs ≠ []) : ys ≠ [] := by
  rw [← List.isEmpty_eq_false_iff, h.isEmpty]
  exact List.isEmpty_eq_false_iff.mpr hx

end Echoes

/-- Both give results that stand in the relation, or both a report. -/
inductive Agrees (o : Omission) {α β : Type} (R : α → β → Prop) :
    Except Report α → Except Report β → Prop
  | ok {a : α} {b : β} : R a b → Agrees o R (.ok a) (.ok b)
  | error {r r' : Report} : (o.words = false → r' = r) → Agrees o R (.error r) (.error r')

namespace Agrees

variable {α β γ δ : Type} {R : α → β → Prop}

/-- Steps that may end in a report agree if what they go on with does. -/
theorem bind {Q : γ → δ → Prop} {x : Except Report α} {y : Except Report β}
    {f : α → Except Report γ}
    {g : β → Except Report δ} (h : o.Agrees R x y) (hf : ∀ a b, R a b → o.Agrees Q (f a) (g b)) :
    o.Agrees Q (x >>= f) (y >>= g) := by
  cases h with
  | ok hab => exact hf _ _ hab
  | error hsame => exact .error hsame

/-- Items that agree one by one agree together, up to the first report. -/
theorem mapM {f g : α → Except Report β} {items : List α}
    (h : ∀ item ∈ items, o.Agrees Eq (f item) (g item)) :
    o.Agrees Eq (items.mapM f) (items.mapM g) := by
  induction items with
  | nil => exact .ok rfl
  | cons item rest ih =>
    rw [List.mapM_cons, List.mapM_cons]
    refine (h item (List.mem_cons_self ..)).bind ?_
    rintro first _ rfl
    refine (ih fun item hitem => h item (List.mem_cons_of_mem _ hitem)).bind ?_
    rintro others _ rfl
    exact .ok rfl

end Agrees

end Omission

/-- One result, and both report or neither does. -/
structure Outcome.Echoes (o : Omission) (a b : Outcome) : Prop where
  value : b.value = a.value
  reports : o.Echoes a.reports b.reports
  strip : b.strip = a.strip

namespace Outcome.Echoes

variable {o : Omission} {a b : Outcome}

/-- An outcome echoes itself. -/
theorem refl (a : Outcome) : Outcome.Echoes o a a := ⟨rfl, .refl _, rfl⟩

/-- Outcomes that echo each other pass or fail together. -/
theorem isOk (h : Outcome.Echoes o a b) : b.isOk = a.isOk := h.reports.isEmpty

/-- Where words stay, it is one outcome. -/
theorem eq_of_words (h : Outcome.Echoes o a b) (ho : o.words = false) : b = a := by
  obtain ⟨value, reports, strip⟩ := a
  obtain ⟨value', reports', strip'⟩ := b
  obtain ⟨rfl, hreports, rfl⟩ := h
  rw [show reports' = reports from hreports.same ho]

/-- Two outcomes with one echo. -/
theorem of_common {c : Outcome} (ha : Outcome.Echoes o a c) (hb : Outcome.Echoes o b c) :
    Outcome.Echoes o a b where
  value := hb.value.symm.trans ha.value
  reports := ⟨hb.reports.isEmpty.symm.trans ha.reports.isEmpty,
    fun ho => (hb.reports.same ho).symm.trans (ha.reports.same ho)⟩
  strip := hb.strip.symm.trans ha.strip

/-- A failure with one report echoes another with one. -/
theorem failure (value : Value) {r r' : Report} (h : o.words = false → r' = r) :
    Outcome.Echoes o (.failure value r) (.failure value r') :=
  ⟨rfl, .one h, rfl⟩

end Outcome.Echoes

/-! ### Sites -/

/-- No function reads templates that are left out. -/
structure Environment.Deaf (o : Omission) (env : Environment) : Prop where
  customs : ∀ name f, env.registry.customs name = some f → ∀ value (p : Preferences),
    f value (p.without o) = f value p
  defaults : ∀ name f, env.registry.defaults name = some f → ∀ value (p : Preferences),
    f value (p.without o) = f value p

/-- The node's patch does not switch defaults on. -/
def Schema.LeavesDefaultsOff (s : Schema) : Prop :=
    ∀ patch ∈ s.node.prefs, patch.noDefaults ≠ some false

/-- Where defaults are left out, the node's patch does not switch them on. -/
def Schema.Admits (o : Omission) (s : Schema) : Prop := o.defaults = true → s.LeavesDefaultsOff

/-- The preferences have defaults off, where those are left out. -/
def Preferences.Omits (o : Omission) (p : Preferences) : Prop :=
    o.defaults = true → p.noDefaults = true

/-- The preferences of a node do not switch defaults on again. -/
theorem Preferences.Omits.merged {o : Omission} {p : Preferences} (h : p.Omits o)
    {s : Schema} (hs : s.Admits o) : (p.merged s.node.prefs).Omits o := by
  intro ho
  cases hpatch : s.node.prefs with
  | none => exact h ho
  | some patch =>
    have hadmits : patch.noDefaults ≠ some false := hs ho patch hpatch
    rw [merged_some]
    show patch.noDefaults.getD p.noDefaults = true
    cases hset : patch.noDefaults with
    | none => exact h ho
    | some off =>
      cases off with
      | true => rfl
      | false => exact absurd hset hadmits

namespace Site

/-- The same site without. -/
def without (o : Omission) (site : Site) : Site where
  env := site.env.without o
  schema := { node := (site.node.map (Schema.without o)).without o, stamp := site.schema.stamp }
  position := site.position
  prefs := site.prefs.without o
  input := site.input

/-- What the steps of a node need to know. -/
structure Spares (o : Omission) (site : Site) : Prop where
  deaf : site.env.Deaf o
  prefs : site.prefs.Omits o

variable {o : Omission} {site : Site}

/-- Where words stay, so does the label. -/
theorem label_without (ho : o.words = false) :
    (site.without o).node.flags.label = site.node.flags.label := by
  show (if o.words then none else site.node.flags.label) = _
  rw [ho]
  rfl

/-- Where words stay, reports are written as they were. -/
theorem report_without (ho : o.words = false) : @report (site.without o) = @report site := by
  funext code value context
  unfold report
  exact congrFun (congrFun (congrFun (reportAt_congr (label_without ho) rfl) code) value) context

/-- The site's own report. -/
theorem own_agrees {α β : Type} {R : α → β → Prop} (site : Site) (code : String) (value : Value)
    (context : List (String × Value)) :
    o.Agrees R (.error (site.report code value context))
      (.error ((site.without o).report code value context)) :=
  .error fun ho => by rw [report_without ho]

/-- A report of the site echoes the one without what is left out. -/
theorem own_echoes (site : Site) (code : String) (value : Value) (context : List (String × Value)) :
    o.Echoes [site.report code value context] [(site.without o).report code value context] :=
  .one fun ho => by rw [report_without ho]

/-- An outcome with one report of the site echoes the one without what is left out. -/
theorem failure_echoes (site : Site) (code : String) (value : Value)
    (context : List (String × Value)) :
    Outcome.Echoes o (.failure value (site.report code value context))
      (.failure value ((site.without o).report code value context)) :=
  .failure value fun ho => by rw [report_without ho]

/-- References look at no templates. -/
theorem resolve_without (r : Reference) (value : Value) :
    r.resolve value (site.without o).scope = r.resolve value site.scope := rfl

/-! ### The finish -/

/-- A default comes to the same value, or fails in both. -/
theorem defaultValue_agrees (h : site.Spares o) (d : Default) :
    o.Agrees Eq (site.defaultValue d) ((site.without o).defaultValue d) := by
  cases d with
  | value v => exact .ok rfl
  | reference r => exact .ok rfl
  | deep => exact .ok rfl
  | function name =>
    have hfunctions : (site.without o).env.registry.defaults = site.env.registry.defaults := rfl
    have hparent : (site.without o).position = site.position := rfl
    have hprefs : (site.without o).prefs = site.prefs.without o := rfl
    unfold defaultValue
    dsimp only
    rw [hfunctions, hparent, hprefs]
    cases hname : site.env.registry.defaults name with
    | none => exact .ok rfl
    | some f =>
      dsimp only
      rw [h.deaf.defaults name f hname]
      split
      · exact .ok rfl
      · exact own_agrees ..

/-- What replaces a value that failed goes by values alone. -/
theorem replacement?_without (h : site.Spares o) :
    (site.without o).replacement? = site.replacement? := by
  have hfailover : (site.without o).node.flags.failover = site.node.flags.failover := rfl
  unfold replacement?
  rw [hfailover]
  cases site.node.flags.failover with
  | none => rfl
  | some d =>
    have hagrees := defaultValue_agrees h d
    dsimp only [Option.map]
    revert hagrees
    generalize site.defaultValue d = x
    generalize (site.without o).defaultValue d = y
    rintro (⟨rfl⟩ | _)
    · rfl
    · rfl

/-- What a node fails over to is the same, and is put in the place of a failed value in both. -/
theorem recover_echoes (h : site.Spares o) (value : Value) {xs ys : List Report}
    (hxs : o.Echoes xs ys) : ((site.without o).recover value ys).1 = (site.recover value xs).1 ∧
      o.Echoes (site.recover value xs).2 ((site.without o).recover value ys).2 := by
  unfold recover
  rw [hxs.isEmpty, replacement?_without h]
  split
  · exact ⟨rfl, hxs⟩
  · split
    · exact ⟨rfl, .refl []⟩
    · exact ⟨rfl, hxs⟩

/-- A message of the schema's own stands for reports if there are any. -/
theorem isEmpty_withOwnMessage (site : Site) (value : Value) (reports : List Report) :
    (site.withOwnMessage value reports).isEmpty = reports.isEmpty := by
  unfold withOwnMessage
  cases reports with
  | nil => rfl
  | cons first rest => cases site.node.flags.message <;> rfl

/-- A message of the node's own replaces reports by one, so there are some in both. -/
theorem withOwnMessage_echoes (value : Value) {xs ys : List Report} (hxs : o.Echoes xs ys) :
    o.Echoes (site.withOwnMessage value xs) ((site.without o).withOwnMessage value ys) := by
  refine ⟨?_, fun ho => ?_⟩
  · rw [isEmpty_withOwnMessage, isEmpty_withOwnMessage, hxs.isEmpty]
  · have hmessage : (site.without o).node.flags.message = site.node.flags.message := by
      show (if o.words then none else site.node.flags.message) = _
      rw [ho]
      rfl
    unfold withOwnMessage
    rw [report_without ho, hmessage, hxs.same ho]

/-- Where defaults are left out, none is asked for. -/
theorem default_without (h : site.Spares o) (hon : site.prefs.noDefaults = false) :
    (site.without o).node.flags.default = site.node.flags.default := by
  have ho : o.defaults = false := by
    rw [← Bool.not_eq_true]
    intro ho
    rw [h.prefs ho] at hon
    exact absurd hon (by decide)
  show (if o.defaults then none else site.node.flags.default) = _
  rw [ho]
  rfl

/-- Where defaults are left out they are off as well, so that none is filled in. -/
theorem fillIn_echoes (h : site.Spares o) (value : Value) {xs ys : List Report}
    (hxs : o.Echoes xs ys) : ((site.without o).fillIn value ys).1 = (site.fillIn value xs).1 ∧
      o.Echoes (site.fillIn value xs).2 ((site.without o).fillIn value ys).2 := by
  have hoff : (site.without o).prefs.noDefaults = site.prefs.noDefaults := rfl
  unfold fillIn
  rw [hoff]
  split
  · exact ⟨rfl, hxs⟩
  next hasks =>
    have hon : site.prefs.noDefaults = false := by
      rw [Bool.or_eq_true, not_or, Bool.not_eq_true, Bool.not_eq_true] at hasks
      exact hasks.2
    rw [default_without h hon]
    cases site.node.flags.default with
    | none => exact ⟨rfl, hxs⟩
    | some d =>
      have hagrees := defaultValue_agrees h d
      dsimp only [Option.map]
      revert hagrees
      generalize site.defaultValue d = x
      generalize (site.without o).defaultValue d = y
      rintro (⟨rfl⟩ | hsame)
      · exact ⟨rfl, hxs⟩
      · exact ⟨rfl, hxs.append (.one hsame)⟩

/-- The last steps of a node come to outcomes that echo each other. -/
theorem finish_echoes (h : site.Spares o) (value : Value) {xs ys : List Report}
    (hxs : o.Echoes xs ys) (strip : Bool) :
    Outcome.Echoes o (site.finish value xs strip) ((site.without o).finish value ys strip) := by
  obtain ⟨hvalue, hreports⟩ := recover_echoes h value hxs
  obtain ⟨hfilled, hall⟩ := fillIn_echoes h (site.recover value xs).1
    (withOwnMessage_echoes (site.recover value xs).1 hreports)
  unfold finish
  refine ⟨?_, ?_, rfl⟩
  · show (if site.node.flags.raw then site.input else _) =
      if site.node.flags.raw then site.input else _
    rw [hvalue, hfilled]
  · dsimp only
    rw [hvalue]
    exact hall

/-! ### Presence and the sets of values -/

/-- The check of presence goes on with one value in both, or ends in both. -/
theorem checkPresence_echoes (h : site.Spares o) (value : Value) :
    (∃ next, site.checkPresence value = .ok next ∧
      (site.without o).checkPresence value = .ok next) ∨
      ∃ xs ys, site.checkPresence value = .error xs ∧
        (site.without o).checkPresence value = .error ys ∧
        o.Echoes xs ys := by
  have hpresence : (site.without o).presence = site.presence := rfl
  have hdeep : (site.without o).isDeep = site.isDeep := by
    have hoff : (site.without o).prefs.noDefaults = site.prefs.noDefaults := rfl
    unfold isDeep
    rw [hoff]
    cases hon : site.prefs.noDefaults with
    | true => rfl
    | false => rw [default_without h hon]
  unfold checkPresence
  rw [hpresence, hdeep]
  split
  · exact .inr ⟨_, _, rfl, rfl, own_echoes ..⟩
  · exact .inr ⟨_, _, rfl, rfl, own_echoes ..⟩
  · exact .inr ⟨_, _, rfl, rfl, .refl []⟩
  · split
    · exact .inl ⟨_, rfl, rfl⟩
    · exact .inr ⟨_, _, rfl, rfl, .refl []⟩
  · exact .inl ⟨_, rfl, rfl⟩

/-- The set of allowed values stays. -/
theorem allowed?_without (value : Value) :
    (site.without o).allowed? value = site.allowed? value := by
  have hget : (site.without o).node.allowed.get? value (site.without o).scope
      (site.without o).node.flags.insensitive =
      site.node.allowed.get? value site.scope site.node.flags.insensitive :=
    ValueSet.get?_congr (fun r _ => resolve_without r value) _
  unfold allowed?
  rw [hget]
  rfl

/-- The same values are denied. -/
theorem denials_echoes (value : Value) :
    o.Echoes (site.denials value) ((site.without o).denials value) := by
  have hdenied : (site.without o).node.denied.has value (site.without o).scope
      (site.without o).node.flags.insensitive =
      site.node.denied.has value site.scope site.node.flags.insensitive :=
    ValueSet.has_congr (fun r _ => resolve_without r value) _
  have honly : (site.without o).node.flags.only = site.node.flags.only := rfl
  unfold denials
  rw [hdenied, honly]
  refine .append ?_ ?_
  · split
    · exact own_echoes ..
    · exact .refl []
  · split
    · exact own_echoes ..
    · exact .refl []

/-! ### Conversion -/

/-- A rule is found by its name in both. -/
theorem rule?_without (name : String) :
    (site.without o).schema.rule? name = (site.schema.rule? name).map
      (Rule.map (Schema.without o)) := by
  have hrules : (site.without o).schema.node.rules =
      site.schema.node.rules.map (Rule.map (Schema.without o)) := rfl
  unfold Schema.rule?
  rw [hrules, ← List.map_reverse, List.find?_map]
  rfl

/-- The first argument of the last rule of that name. -/
theorem firstArgument_without (name : String) :
    ((site.without o).schema.rule? name).bind (·.args.head?) =
      ((site.schema.rule? name).bind (·.args.head?)).map (Argument.map (Schema.without o)) := by
  rw [rule?_without]
  cases site.schema.rule? name with
  | none => rfl
  | some rule =>
    show (rule.args.map (Argument.map (Schema.without o))).head? = _
    exact List.head?_map

/-- Texts are converted by settings and rules that stay. -/
theorem coerce_string_without (form : StringForm) (value : Value) :
    form.coerce (site.without o) value = form.coerce site value := by
  unfold StringForm.coerce
  cases value with
  | string text =>
    -- conversion reads the first argument of three rules, and no label
    have hcase : StringForm.inCase (site.without o).schema text =
        StringForm.inCase site.schema text := by
      unfold StringForm.inCase
      rw [firstArgument_without]
      cases (site.schema.rule? "case").bind (·.args.head?) with
      | none => rfl
      | some arg => cases arg <;> rfl
    have htrim (text : String) :
        StringForm.trimmed (site.without o).schema text = StringForm.trimmed site.schema text := by
      unfold StringForm.trimmed
      rw [firstArgument_without]
      cases (site.schema.rule? "trim").bind (·.args.head?) with
      | none => rfl
      | some arg => cases arg <;> rfl
    have hlimit (text : String) : StringForm.cutLimit? (site.without o) text =
        StringForm.cutLimit? site text := by
      unfold StringForm.cutLimit?
      rw [firstArgument_without]
      cases (site.schema.rule? "max").bind (·.args.head?) with
      | none => rfl
      | some arg => cases arg <;> rfl
    dsimp only
    unfold StringForm.cut
    rw [hcase, htrim, hlimit]
  | _ => rfl

/-- Truth values are converted by sets that stay. -/
theorem coerce_boolean_without (form : BooleanForm) (value : Value) :
    form.coerce (site.without o) value = form.coerce site value := by
  have hread : form.read? value (site.without o).scope = form.read? value site.scope := by
    have hhas (set : ValueSet) (insensitive : Bool) :
        set.has value (site.without o).scope insensitive = set.has value site.scope insensitive :=
      ValueSet.has_congr (fun r _ => resolve_without r value) insensitive
    unfold BooleanForm.read?
    rw [hhas, hhas]
  unfold BooleanForm.coerce
  cases value with
  | bool answer => rfl
  | _ => exact congrArg (fun found => (Option.map Value.bool found).getD _) hread

/-- Conversion comes to the same value or fails in both. -/
theorem convert_agrees (value : Value) :
    o.Agrees Eq (site.convert value) ((site.without o).convert value) := by
  have hform : (site.without o).node.form = site.node.form.map (Schema.without o) := rfl
  have hconvert : (site.without o).prefs.convert = site.prefs.convert := rfl
  unfold convert
  rw [hconvert]
  split
  · exact .ok rfl
  · rw [hform]
    cases site.node.form with
    | boolean form =>
      dsimp only [Form.map]
      rw [coerce_boolean_without]
      exact .ok rfl
    | string form =>
      dsimp only [Form.map]
      rw [coerce_string_without]
      exact .ok rfl
    | number allowUnsafe =>
      -- a number too large for a double is the one conversion that reports
      dsimp only [Form.map]
      unfold NumberCheck.coerce
      split
      · split
        · exact .ok rfl
        · exact own_agrees ..
        · exact .ok rfl
      · exact .ok rfl
    | _ => exact .ok rfl

/-! ### Checks of a type that look at the value alone -/

/-- The check that a value is bytes reports in both or in neither. -/
theorem binaryBase_echoes (value : Value) :
    Outcome.Echoes o (Binary.base site value) (Binary.base (site.without o) value) := by
  unfold Binary.base
  split
  · exact .refl _
  · exact failure_echoes ..

/-- The check that a value is a truth value reports in both or in neither. -/
theorem booleanBase_echoes (value : Value) :
    Outcome.Echoes o (BooleanForm.base site value) (BooleanForm.base (site.without o) value) := by
  unfold BooleanForm.base
  split
  · exact .refl _
  · exact failure_echoes ..

/-- The check that a value is a text reports in both or in neither. -/
theorem stringBase_echoes (value : Value) :
    Outcome.Echoes o (StringForm.base site value) (StringForm.base (site.without o) value) := by
  unfold StringForm.base
  split
  · exact .refl _
  · exact failure_echoes ..

/-- The check that a value is a date reports in both or in neither. -/
theorem dateBase_echoes (format : Option DateFormat) (value : Value) :
    Outcome.Echoes o (DateCheck.base format site value)
      (DateCheck.base format (site.without o) value) := by
  have hconvert : (site.without o).prefs.convert = site.prefs.convert := rfl
  unfold DateCheck.base
  rw [hconvert]
  split
  · exact .refl _
  · split
    · exact failure_echoes ..
    · exact failure_echoes ..

/-- The check that a value is a number reports in both or in neither. -/
theorem numberBase_echoes (allowUnsafe : Bool) (value : Value) :
    Outcome.Echoes o (NumberCheck.base allowUnsafe site value)
      (NumberCheck.base allowUnsafe (site.without o) value) := by
  have hconvert : (site.without o).prefs.convert = site.prefs.convert := rfl
  -- the digits asked for are an argument, and left where they are
  have hplaces : NumberCheck.places? (site.without o).schema = NumberCheck.places? site.schema := by
    unfold NumberCheck.places?
    rw [rule?_without]
    cases site.schema.rule? "precision" with
    | none => rfl
    | some rule =>
      obtain ⟨name, args⟩ := rule
      cases args with
      | nil => rfl
      | cons arg rest => cases arg <;> rfl
  unfold NumberCheck.base
  rw [hconvert, hplaces]
  split
  · split
    · exact failure_echoes ..
    · split
      · exact failure_echoes ..
      · split
        · exact failure_echoes ..
        · exact .refl _
  · exact failure_echoes ..

/-! ### Rules that look at the value alone -/

/-- A requirement fails in both or in neither. -/
theorem require_agrees (code : String) (value : Value) (passes : Bool) :
    o.Agrees Eq (site.require code value passes) ((site.without o).require code value passes) := by
  unfold require
  split
  · exact .ok rfl
  · exact own_agrees ..

theorem requireSize_agrees (code : String) (value : Value) (limit : Nat) (passes : Bool) :
    o.Agrees Eq (site.requireSize code value limit passes)
      ((site.without o).requireSize code value limit passes) := by
  unfold requireSize
  split
  · exact .ok rfl
  · exact own_agrees ..

/-- The rules of bytes fail in both or in neither. -/
theorem binaryRule_agrees (name : String) (given : Given) (value : Value) :
    o.Agrees Eq (Binary.rule site name given value)
      (Binary.rule (site.without o) name (given.map (Schema.without o)) value) := by
  unfold Binary.rule
  rw [Given.count_map]
  dsimp only
  split
  · exact requireSize_agrees ..
  · exact requireSize_agrees ..
  · exact requireSize_agrees ..
  · exact .ok rfl

/-- The rules of dates fail in both or in neither. -/
theorem dateRule_agrees (name : String) (given : Given) (value : Value) :
    o.Agrees Eq (DateCheck.rule site name given value)
      (DateCheck.rule (site.without o) name (given.map (Schema.without o)) value) := by
  have hcompare (code : String) (passes : Int → Int → Bool) :
      o.Agrees Eq (DateCheck.compare site code given value passes)
        (DateCheck.compare (site.without o) code (given.map (Schema.without o)) value passes) := by
    have hnow : (site.without o).env.now = site.env.now := rfl
    unfold DateCheck.compare
    rw [Given.value_map, hnow]
    split
    · exact own_agrees ..
    · split
      · exact .ok rfl
      · exact own_agrees ..
  unfold DateCheck.rule
  split
  · exact hcompare ..
  · exact hcompare ..
  · exact hcompare ..
  · exact hcompare ..
  · exact .ok rfl

/-- The rules of numbers fail in both or in neither. -/
theorem numberRule_agrees (name : String) (given : Given) (value : Value) :
    o.Agrees Eq (NumberCheck.rule site name given value)
      (NumberCheck.rule (site.without o) name (given.map (Schema.without o)) value) := by
  -- bounds may be references, and are compared the same way
  have hcompare (code : String) (passes : Number → Number → Bool) :
      o.Agrees Eq (NumberCheck.compare site code given value passes)
        (NumberCheck.compare (site.without o) code
          (given.map (Schema.without o)) value passes) := by
    unfold NumberCheck.compare
    rw [Given.number_map]
    dsimp only
    split
    · split
      · exact .ok rfl
      · exact own_agrees ..
    · exact own_agrees ..
  have htest (code : String) (passes : Number → Bool) :
      o.Agrees Eq (NumberCheck.test site code value passes)
        (NumberCheck.test (site.without o) code value passes) := require_agrees ..
  unfold NumberCheck.rule
  rw [Given.count_map, Given.number_map]
  split
  · exact hcompare ..
  · exact hcompare ..
  · exact hcompare ..
  · exact hcompare ..
  · exact htest ..
  · exact requireSize_agrees ..
  · dsimp only
    split
    · exact .ok rfl
    · exact own_agrees ..
  · exact htest ..
  · exact htest ..
  · exact htest ..
  · exact .ok rfl

/-- The rule of a pattern fails in both or in neither, whatever the pattern is called. -/
theorem patternRule_agrees (given : Given) (value : Value) :
    o.Agrees Eq (StringForm.patternRule site given value)
      (StringForm.patternRule (site.without o) (given.map (Schema.without o)) value) := by
  unfold StringForm.patternRule
  rw [Given.pattern?_map, Given.isTrue_map, Given.text?_map]
  split
  · exact .ok rfl
  · dsimp only
    split
    · exact .ok rfl
    · split
      · exact own_agrees ..
      · exact own_agrees ..

/-- The rules of texts fail in both or in neither. -/
theorem stringRule_agrees (name : String) (given : Given) (value : Value) :
    o.Agrees Eq (StringForm.rule site name given value)
      (StringForm.rule (site.without o) name (given.map (Schema.without o)) value) := by
  have htest (code : String) (passes : String → Bool) :
      o.Agrees Eq (StringForm.test site code value passes)
        (StringForm.test (site.without o) code value passes) := require_agrees ..
  have hhex : o.Agrees Eq (StringForm.hexRule site given value)
      (StringForm.hexRule (site.without o) (given.map (Schema.without o)) value) := by
    unfold StringForm.hexRule
    rw [Given.isTrue_map]
    dsimp only
    split
    · exact own_agrees ..
    · exact require_agrees ..
  have hdate : o.Agrees Eq (StringForm.isoDateRule site value)
      (StringForm.isoDateRule (site.without o) value) := by
    have hconvert : (site.without o).prefs.convert = site.prefs.convert := rfl
    unfold StringForm.isoDateRule
    rw [hconvert]
    split
    · exact .ok rfl
    · exact own_agrees ..
  have hcase : o.Agrees Eq (StringForm.caseRule site given value)
      (StringForm.caseRule (site.without o) (given.map (Schema.without o)) value) := by
    unfold StringForm.caseRule
    rw [Given.text?_map]
    dsimp only
    split
    · exact require_agrees ..
    · exact require_agrees ..
  unfold StringForm.rule
  rw [Given.count_map, Given.isTrue_map, Given.isTrue_map]
  dsimp only
  split
  · exact requireSize_agrees ..
  · exact requireSize_agrees ..
  · exact requireSize_agrees ..
  · exact patternRule_agrees ..
  · exact htest ..
  · exact htest ..
  · exact hhex
  · exact require_agrees ..
  · exact htest ..
  · exact hdate
  · exact hcase
  · split
    · exact htest ..
    · exact .ok rfl
  · exact .ok rfl

/-- Repetitions are found by keys of values, in both or in neither. -/
theorem uniqueRule_agrees (given : Given) (value : Value) :
    o.Agrees Eq (ArrayForm.uniqueRule site given value)
      (ArrayForm.uniqueRule (site.without o) (given.map (Schema.without o)) value) := by
  unfold ArrayForm.uniqueRule
  rw [Given.text?_map, Given.isTrue_map]
  split
  · dsimp only
    split
    · exact .ok rfl
    · refine .error fun ho => ?_
      exact congrFun (congrFun (congrFun (reportAt_congr (label_without ho) rfl) _) _) _
  · exact .ok rfl

/-- A function sees the preferences, and reads no templates where words are left out. -/
theorem customRule_agrees (h : site.Spares o) (given : Given) (value : Value) :
    o.Agrees Eq (site.customRule given value)
      ((site.without o).customRule (given.map (Schema.without o)) value) := by
  have hcustoms : (site.without o).env.registry.customs = site.env.registry.customs := rfl
  have hprefs : (site.without o).prefs = site.prefs.without o := rfl
  unfold customRule
  rw [Given.function?_map, hcustoms, hprefs]
  split
  · exact .ok rfl
  next name _ =>
    cases hname : site.env.registry.customs name with
    | none => exact .ok rfl
    | some f =>
      dsimp only
      rw [h.deaf.customs name f hname]
      split
      · exact .ok rfl
      · exact own_agrees ..

/-! ### Arguments -/

/-- An argument resolves to the same value in both, or fails in both. -/
theorem resolveArgument_agrees (value : Value) (p : Parameter) (arg : Argument Schema) :
    o.Agrees Eq (site.resolveArgument value p arg)
      ((site.without o).resolveArgument value p (arg.map (Schema.without o))) := by
  cases arg with
  | reference r =>
    unfold resolveArgument
    dsimp only [Argument.map]
    rw [resolve_without]
    split
    · exact .ok rfl
    · split
      · exact .ok rfl
      · exact own_agrees ..
  | _ => exact .ok rfl

/-- The arguments are the same but for the schemas among them. -/
theorem resolveArguments_agrees (value : Value) (parameters : List Parameter)
    (args : List (Argument Schema)) :
    o.Agrees (fun given given' => given' = given.map (Schema.without o))
      (site.resolveArguments value parameters args)
      ((site.without o).resolveArguments value parameters
        (args.map (Argument.map (Schema.without o)))) := by
  have hstored : (parameters.map (·.name)).zip (args.map (Argument.map (Schema.without o))) =
      mapChildren (Argument.map (Schema.without o)) ((parameters.map (·.name)).zip args) := by
    rw [List.zip_map_right]
    rfl
  unfold resolveArguments
  rw [List.zip_map_right, List.mapM_map, hstored]
  refine Omission.Agrees.bind (R := Eq) (Omission.Agrees.mapM fun pair _ => ?_) ?_
  · obtain ⟨p, arg⟩ := pair
    refine (resolveArgument_agrees value p arg).bind ?_
    rintro v _ rfl
    exact .ok rfl
  · rintro values _ rfl
    exact .ok rfl

end Site

end Conform
