import Conform.Proofs.Reads

/-!
# Steps that two checks share

Two checks by one schema may differ in the marks that the schema bears, in what stands around
the value where the schema does not look, and in whether the first failure settles them.
`Site.Alike` says that they differ in nothing else. The steps that check no inner schema then
give the same in both: reports, conversion, presence, the sets of values, the finish, and the
rules that look at the value alone.

The relation has a change `f` of the schemas inside as its parameter, so that it speaks of a schema
and of a changed copy of it alike. What a node looks at outside its value is a list of looks
(`Node.looks`), and the relation asks only that each of them sees the same. From there the lemmas
follow the steps of a node in the order of their dependence: how a report is written (`report`),
what references lead to (`resolve` and the three places where references stand), what the finish
makes of an outcome (`finish`), what presence and the sets of values say, what conversion makes of a
value (`convert`), and what the rules of each type report.

A rule may hold schemas among its arguments. Looking one of its arguments up by name commutes with
the change (`Given.value_map` and the lemmas beside it), which is why the rules that do not check a
schema come to the same word for word. Nothing here runs an inner check; the modules that compare
whole checks build on these steps and have only the inner checks left to compare.
-/

namespace Conform

/-- The preferences where no failure settles the check. -/
def Preferences.collecting (p : Preferences) : Preferences := { p with abortEarly := false }

/-- The forms of nodes with what is inside changed, cells of lazy ones apart. -/
inductive Form.Alike {σ τ : Type} (f : σ → τ) : Form σ → Form τ → Prop
  | map (form : Form σ) : Form.Alike f form (form.map f)
  | lazy {form other : LazyForm} : other.generator = form.generator →
      Form.Alike f (.lazy form) (.lazy other)

/-- Forms that are alike have one type. -/
theorem Form.Alike.kind {σ τ : Type} {f : σ → τ} {form : Form σ} {other : Form τ}
    (h : Form.Alike f form other) : other.kind = form.kind := by
  cases h with
  | map => cases form <;> rfl
  | lazy => rfl

namespace Site

/-- Sites at which the steps that check no inner schema give the same; `f` changes the schemas
inside. -/
structure Alike (f : Schema → Schema) (a b : Site) : Prop where
  env : b.env = a.env
  input : b.input = a.input
  path : b.position.path = a.position.path
  flags : b.node.flags = a.node.flags
  allowed : b.node.allowed = a.node.allowed
  denied : b.node.denied = a.node.denied
  empty : b.node.empty = a.node.empty.map f
  rules : b.node.rules = a.node.rules.map (Rule.map f)
  form : Form.Alike f a.node.form b.node.form
  prefs : b.prefs.collecting = a.prefs.collecting
  sees : ∀ look ∈ a.node.looks, ∀ value, look.sees value b.scope = look.sees value a.scope
  customs : ∀ name g, a.env.registry.customs name = some g →
    ∀ value, g value b.prefs = g value a.prefs
  defaults : ∀ name g, a.env.registry.defaults name = some g →
    ∀ value, g value b.prefs = g value a.prefs

/-- Sites of one node, where nothing is changed inside. -/
theorem alike_of_node {a b : Site} (henv : b.env = a.env) (hinput : b.input = a.input)
    (hpath : b.position.path = a.position.path) (hnode : b.node = a.node)
    (hprefs : b.prefs.collecting = a.prefs.collecting)
    (hsees : ∀ look ∈ a.node.looks, ∀ value, look.sees value b.scope = look.sees value a.scope)
    (hcustoms : ∀ name g, a.env.registry.customs name = some g →
      ∀ value, g value b.prefs = g value a.prefs)
    (hdefaults : ∀ name g, a.env.registry.defaults name = some g →
      ∀ value, g value b.prefs = g value a.prefs) :
    Alike id a b where
  env := henv
  input := hinput
  path := hpath
  flags := congrArg Node.flags hnode
  allowed := congrArg Node.allowed hnode
  denied := congrArg Node.denied hnode
  empty := (congrArg Node.empty hnode).trans Option.map_id_apply.symm
  rules := by
    rw [show (Rule.map id : Rule Schema → Rule Schema) = id from
      funext Rule.map_id, List.map_id, hnode]
  form := by
    have hform := Form.Alike.map (f := (id : Schema → Schema)) a.node.form
    rw [Form.map_id] at hform
    rw [hnode]
    exact hform
  prefs := hprefs
  sees := hsees
  customs := hcustoms
  defaults := hdefaults

end Site

/-- A report is about a path and a label, and about nothing else of the schema and its position. -/
theorem reportAt_congr {s t : Schema} {p q : Position}
    (hlabel : t.node.flags.label = s.node.flags.label) (hpath : q.path = p.path) :
    reportAt t q = reportAt s p := by
  unfold reportAt Position.label Position.key?
  rw [hlabel, hpath]

/-! ### Sets of values -/

namespace ValueSet

variable {set : ValueSet} {value : Value} {scope scope' : Scope}

/-- Which references a set looks up, and what it finds, is settled by what its
references resolve to. -/
theorem resolved?_congr
    (h : ∀ r ∈ set.referenceItems, r.resolve value scope' = r.resolve value scope)
    (insensitive : Bool) :
    set.resolved? value scope' insensitive = set.resolved? value scope insensitive := by
  unfold resolved?
  generalize set.referenceItems = refs at h
  induction refs with
  | nil => rfl
  | cons r rest ih =>
    rw [List.findSome?_cons, List.findSome?_cons]
    have hr : r.resolveAll value scope' = r.resolveAll value scope := by
      unfold Reference.resolveAll
      rw [h r (List.mem_cons_self ..)]
    rw [hr, ih fun other hother => h other (List.mem_cons_of_mem _ hother)]

/-- The member that a value is found as goes by what the references of the set resolve to. -/
theorem get?_congr (h : ∀ r ∈ set.referenceItems, r.resolve value scope' = r.resolve value scope)
    (insensitive : Bool) :
    set.get? value scope' insensitive = set.get? value scope insensitive := by
  unfold get?
  rw [resolved?_congr h]

/-- Whether a value is in a set goes by what the references of the set resolve to. -/
theorem has_congr (h : ∀ r ∈ set.referenceItems, r.resolve value scope' = r.resolve value scope)
    (insensitive : Bool) : set.has value scope' insensitive = set.has value scope insensitive := by
  unfold has
  rw [get?_congr h]

end ValueSet

/-! ### Arguments of rules -/

namespace Given

/-- The arguments with the schemas among them changed. -/
def map (f : Schema → Schema) (given : Given) : Given :=
  { given with stored := mapChildren (Argument.map f) given.stored }

variable (f : Schema → Schema) (given : Given) (name : String)

@[simp] theorem value_map : (given.map f).value name = given.value name := rfl

@[simp] theorem number_map : (given.map f).number name = given.number name := rfl

@[simp] theorem count_map : (given.map f).count name = given.count name := rfl

@[simp] theorem isTrue_map : (given.map f).isTrue name = given.isTrue name := rfl

@[simp] theorem text?_map : (given.map f).text? name = given.text? name := rfl

/-- What is stored under the names of parameters is changed, and stands where it stood. -/
theorem stored_map :
    Members.get? (given.map f).stored name =
      (Members.get? given.stored name).map (Argument.map f) :=
  get?_mapChildren _ _ _

@[simp] theorem pattern?_map : (given.map f).pattern? name = given.pattern? name := by
  unfold pattern?
  rw [stored_map]
  cases Members.get? given.stored name with
  | none => rfl
  | some arg => cases arg <;> rfl

@[simp] theorem function?_map : (given.map f).function? name = given.function? name := by
  unfold function?
  rw [stored_map]
  cases Members.get? given.stored name with
  | none => rfl
  | some arg => cases arg <;> rfl

@[simp] theorem subject?_map : (given.map f).subject? name = given.subject? name := by
  unfold subject?
  rw [stored_map]
  cases Members.get? given.stored name with
  | none => rfl
  | some arg => cases arg <;> rfl

/-- The schema that an argument holds is the changed one. -/
@[simp] theorem schema?_map : (given.map f).schema? name = (given.schema? name).map f := by
  unfold schema?
  rw [stored_map]
  cases Members.get? given.stored name with
  | none => rfl
  | some arg => cases arg <;> rfl

end Given

namespace Site.Alike

variable {f : Schema → Schema} {a b : Site} (h : Site.Alike f a b)

include h

/-- The nodes of alike sites have one type. -/
theorem kind : b.node.kind = a.node.kind := h.form.kind

/-- Reports are written alike, whatever the code, the value and the context. -/
theorem report : @Site.report b = @Site.report a := by
  funext code value context
  unfold Site.report
  exact congrFun
    (congrFun (congrFun (reportAt_congr (congrArg Flags.label h.flags) h.path) code) value)
    context

/-- Reports on limits are reports with a context. -/
theorem limitReport : b.limitReport = a.limitReport := by
  unfold Site.limitReport
  rw [h.report]

/-- What is required of a value is reported alike. -/
theorem require : b.require = a.require := by
  unfold Site.require
  rw [h.report]

/-- What is required of a size is reported alike. -/
theorem requireSize : b.requireSize = a.requireSize := by
  unfold Site.requireSize
  rw [h.limitReport]

/-- Whether values are converted is the same in both. -/
theorem convert_prefs : b.prefs.convert = a.prefs.convert := by
  have hsame := congrArg Preferences.convert h.prefs
  exact hsame

/-- Whether defaults are filled in is the same in both. -/
theorem noDefaults : b.prefs.noDefaults = a.prefs.noDefaults := by
  have hsame := congrArg Preferences.noDefaults h.prefs
  exact hsame

/-- References that the node resolves lead to the same values. -/
theorem resolve {r : Reference} (hr : r ∈ a.node.resolved) (value : Value) :
    r.resolve value b.scope = r.resolve value a.scope :=
  h.sees (.reference r) (List.mem_append_left _ (List.mem_map_of_mem hr)) value

/-- The references among the allowed values lead to the same values. -/
theorem resolve_allowed (value : Value) :
    ∀ r ∈ a.node.allowed.referenceItems, r.resolve value b.scope = r.resolve value a.scope :=
  fun _ hr =>
    h.resolve (List.mem_append_left _ (List.mem_append_left _ (List.mem_append_right _ hr))) value

/-- The references among the denied values lead to the same values. -/
theorem resolve_denied (value : Value) :
    ∀ r ∈ a.node.denied.referenceItems, r.resolve value b.scope = r.resolve value a.scope :=
  fun _ hr => h.resolve (List.mem_append_left _ (List.mem_append_right _ hr)) value

/-- The references that the form holds lead to the same values. -/
theorem resolve_form (value : Value) :
    ∀ r ∈ a.node.form.references, r.resolve value b.scope = r.resolve value a.scope :=
  fun _ hr => h.resolve (List.mem_append_right _ hr) value

/-! ### The finish -/

/-- A default comes to the same value or the same failure: it is a value, a reference that the node
resolves, or a generator that sees the parent. -/
theorem defaultValue {d : Default}
    (hd : d ∈ a.node.flags.default.toList ++ a.node.flags.failover.toList) :
    b.defaultValue d = a.defaultValue d := by
  have hlook (look : Look) (hlook : look ∈ d.looks) (value : Value) :
      look.sees value b.scope = look.sees value a.scope :=
    h.sees look (List.mem_append_right _ (List.mem_flatMap.mpr ⟨d, hd, hlook⟩)) value
  cases d with
  | value v => rfl
  | deep => rfl
  | reference r =>
    exact congrArg Except.ok (hlook (.reference r) (List.mem_singleton_self _) .undefined)
  | function name =>
    have hparent : (b.position.ancestor? 0).getD .undefined =
        (a.position.ancestor? 0).getD .undefined :=
      hlook .parent (List.mem_singleton_self _) .undefined
    unfold Site.defaultValue
    dsimp only
    rw [h.env, hparent, h.report]
    cases hname : a.env.registry.defaults name with
    | none => rfl
    | some g =>
      dsimp only
      rw [h.defaults name g hname]

/-- The default of the node comes to the same, if it has one. -/
theorem map_default :
    b.node.flags.default.map b.defaultValue = a.node.flags.default.map a.defaultValue := by
  rw [h.flags]
  exact Option.map_congr_toList fun d hd => h.defaultValue (List.mem_append_left _ hd)

/-- What the node fails over to comes to the same. -/
theorem map_failover :
    b.node.flags.failover.map b.defaultValue = a.node.flags.failover.map a.defaultValue := by
  rw [h.flags]
  exact Option.map_congr_toList fun d hd => h.defaultValue (List.mem_append_right _ hd)

/-- A failover puts the same value in the place of a failed one. -/
theorem recover : b.recover = a.recover := by
  unfold Site.recover Site.replacement?
  rw [h.map_failover]

/-- A message of the node's own replaces the reports of both. -/
theorem withOwnMessage : b.withOwnMessage = a.withOwnMessage := by
  unfold Site.withOwnMessage
  rw [h.flags, h.report]

/-- A default is filled in alike. -/
theorem fillIn : b.fillIn = a.fillIn := by
  unfold Site.fillIn
  rw [h.map_default, h.noDefaults]

/-- The last steps of a node come to the same outcome. -/
theorem finish : @Site.finish b = @Site.finish a := by
  unfold Site.finish
  rw [h.recover, h.withOwnMessage, h.fillIn, h.flags, h.input]

/-! ### Presence and the sets of values -/

/-- Both have the presence that their nodes say, or that is inherited. -/
theorem presence : b.presence = a.presence := by
  have hprefs : b.prefs.collecting.presence = a.prefs.collecting.presence := by rw [h.prefs]
  have hprefs : b.prefs.presence = a.prefs.presence := hprefs
  unfold Site.presence
  rw [h.flags, hprefs]

/-- A value that is missing, or should be, is reported alike. -/
theorem checkPresence : b.checkPresence = a.checkPresence := by
  unfold Site.checkPresence Site.isDeep
  rw [h.presence, h.report, h.flags, h.noDefaults]

/-- A value is found as the same member of what is allowed. -/
theorem allowed? (value : Value) : b.allowed? value = a.allowed? value := by
  unfold Site.allowed?
  rw [h.allowed, h.flags, h.convert_prefs, ValueSet.get?_congr (h.resolve_allowed value)]

/-- The same values are denied, with the same reports. -/
theorem denials (value : Value) : b.denials value = a.denials value := by
  unfold Site.denials
  rw [h.allowed, h.denied, h.flags, h.report, ValueSet.has_congr (h.resolve_denied value)]

/-! ### Conversion -/

/-- A rule that is looked up by its name is found in both, but for what is inside. -/
theorem rule? (name : String) : b.schema.rule? name = (a.schema.rule? name).map (Rule.map f) := by
  have hrules : b.schema.node.rules = a.schema.node.rules.map (Rule.map f) := h.rules
  unfold Schema.rule?
  rw [hrules, ← List.map_reverse, List.find?_map]
  rfl

/-- The first argument of the last rule of that name. -/
theorem firstArgument (name : String) :
    (b.schema.rule? name).bind (·.args.head?) =
      ((a.schema.rule? name).bind (·.args.head?)).map (Argument.map f) := by
  rw [h.rule?]
  cases a.schema.rule? name with
  | none => rfl
  | some rule =>
    show (rule.args.map (Argument.map f)).head? = _
    exact List.head?_map

/-- The limit to which texts are cut is a number, or what a reference leads to. -/
theorem cutLimit? {form : StringForm} (hform : a.node.form = .string form) (text : String) :
    StringForm.cutLimit? b text = StringForm.cutLimit? a text := by
  unfold StringForm.cutLimit?
  rw [h.firstArgument]
  cases hrule : a.schema.rule? "max" with
  | none => rfl
  | some rule =>
    show ((rule.args.head?.map _).bind _) = (rule.args.head?.bind _)
    cases hargs : rule.args with
    | nil => rfl
    | cons arg rest =>
      cases arg with
      -- a literal limit reads nothing; a reference is one that the rule looks up
      | reference r =>
        have hmem : rule ∈ a.node.rules := by
          unfold Schema.rule? at hrule
          exact List.mem_reverse.mp (List.mem_of_find?_eq_some hrule)
        have hname : rule.name = "max" := by
          unfold Schema.rule? at hrule
          have hfound := List.find?_some hrule
          exact beq_iff_eq.mp hfound
        have hr : r ∈ rule.resolved a.node.kind := by
          unfold Rule.resolved Node.kind
          rw [hform, hname, hargs]
          exact List.mem_cons_self ..
        have hresolved : r ∈ a.node.resolved :=
          List.mem_append_left _ (List.mem_append_left _ (List.mem_append_left _
            (List.mem_flatMap.mpr ⟨rule, hmem, hr⟩)))
        show (Option.bind (r.resolve (.string text) b.scope).number? _) = _
        rw [h.resolve hresolved]
        rfl
      | _ => rfl

/-- Texts are converted alike: case, replacements and the cut. -/
theorem coerce_string {form : StringForm} (hform : a.node.form = .string form) (value : Value) :
    form.coerce b value = form.coerce a value := by
  unfold StringForm.coerce
  cases value with
  | string text =>
    have hcase : StringForm.inCase b.schema text = StringForm.inCase a.schema text := by
      unfold StringForm.inCase
      rw [h.firstArgument]
      cases (a.schema.rule? "case").bind (·.args.head?) with
      | none => rfl
      | some arg => cases arg <;> rfl
    have htrim (text : String) : StringForm.trimmed b.schema text =
        StringForm.trimmed a.schema text := by
      unfold StringForm.trimmed
      rw [h.firstArgument]
      cases (a.schema.rule? "trim").bind (·.args.head?) with
      | none => rfl
      | some arg => cases arg <;> rfl
    dsimp only
    unfold StringForm.cut
    rw [hcase, htrim, h.cutLimit? hform]
  | _ => rfl

/-- Truth values are converted alike, by sets whose references the node resolves. -/
theorem coerce_boolean {form : BooleanForm} (hform : a.node.form = .boolean form) (value : Value) :
    form.coerce b value = form.coerce a value := by
  have htruthy : ∀ r ∈ form.truthy.referenceItems,
      r.resolve value b.scope = r.resolve value a.scope :=
    fun r hr => h.resolve_form value r (hform ▸ List.mem_append_left _ hr)
  have hfalsy : ∀ r ∈ form.falsy.referenceItems,
      r.resolve value b.scope = r.resolve value a.scope :=
    fun r hr => h.resolve_form value r (hform ▸ List.mem_append_right _ hr)
  have hread : form.read? value b.scope = form.read? value a.scope := by
    unfold BooleanForm.read?
    rw [ValueSet.has_congr htruthy, ValueSet.has_congr hfalsy]
  unfold BooleanForm.coerce
  cases value with
  | bool answer => rfl
  | _ => exact congrArg (fun found => (Option.map Value.bool found).getD _) hread

/-- Conversion goes by the type, and does not look inside. -/
theorem convert (value : Value) : b.convert value = a.convert value := by
  have hnumber (allowUnsafe : Bool) :
      NumberCheck.coerce allowUnsafe b value = NumberCheck.coerce allowUnsafe a value := by
    unfold NumberCheck.coerce
    rw [h.report]
  have hform := h.form
  unfold Site.convert
  rw [h.convert_prefs]
  revert hform
  generalize b.node.form = other
  cases hcase : a.node.form with
  | boolean form =>
    rintro ⟨⟩
    dsimp only [Form.map]
    rw [h.coerce_boolean hcase]
  | number allowUnsafe =>
    rintro ⟨⟩
    dsimp only [Form.map]
    rw [hnumber]
  | string form =>
    rintro ⟨⟩
    dsimp only [Form.map]
    rw [h.coerce_string hcase]
  | _ => rintro ⟨⟩ <;> rfl

/-! ### Checks of a type that look at the value alone -/

theorem binaryBase (value : Value) : Binary.base b value = Binary.base a value := by
  unfold Binary.base
  rw [h.report]

theorem booleanBase (value : Value) : BooleanForm.base b value = BooleanForm.base a value := by
  unfold BooleanForm.base
  rw [h.report]

theorem dateBase (format : Option DateFormat) (value : Value) :
    DateCheck.base format b value = DateCheck.base format a value := by
  unfold DateCheck.base
  rw [h.report, h.convert_prefs]

theorem stringBase (value : Value) : StringForm.base b value = StringForm.base a value := by
  unfold StringForm.base
  rw [h.report]

theorem numberBase (allowUnsafe : Bool) (value : Value) :
    NumberCheck.base allowUnsafe b value = NumberCheck.base allowUnsafe a value := by
  have hplaces : NumberCheck.places? b.schema = NumberCheck.places? a.schema := by
    unfold NumberCheck.places?
    rw [h.rule?]
    cases a.schema.rule? "precision" with
    | none => rfl
    | some rule =>
      obtain ⟨name, args⟩ := rule
      cases args with
      | nil => rfl
      | cons arg rest => cases arg <;> rfl
  unfold NumberCheck.base
  rw [h.report, h.convert_prefs, hplaces]

/-! ### Rules that look at the value alone -/

/-- A function of the registry sees the value and the preferences. -/
theorem customRule (given : Given) (value : Value) :
    b.customRule (given.map f) value = a.customRule given value := by
  unfold Site.customRule
  rw [Given.function?_map, h.env, h.report]
  cases given.function? "method" with
  | none => rfl
  | some name =>
    dsimp only
    cases hname : a.env.registry.customs name with
    | none => rfl
    | some g =>
      dsimp only
      rw [h.customs name g hname]

/-- The rules of bytes look at the value and at what is given. -/
theorem binaryRule (name : String) (given : Given) (value : Value) :
    Binary.rule b name (given.map f) value = Binary.rule a name given value := by
  unfold Binary.rule
  rw [h.requireSize]
  rfl

/-- The rules of dates look at the value and at what is given. -/
theorem dateRule (name : String) (given : Given) (value : Value) :
    DateCheck.rule b name (given.map f) value = DateCheck.rule a name given value := by
  unfold DateCheck.rule DateCheck.compare
  rw [h.limitReport, h.env]
  rfl

/-- The rules of numbers look at the value and at what is given. -/
theorem numberRule (name : String) (given : Given) (value : Value) :
    NumberCheck.rule b name (given.map f) value = NumberCheck.rule a name given value := by
  unfold NumberCheck.rule NumberCheck.compare NumberCheck.test
  rw [h.limitReport, h.require, h.requireSize, h.report]
  rfl

/-- The rules of texts look at the value and at what is given. -/
theorem stringRule (name : String) (given : Given) (value : Value) :
    StringForm.rule b name (given.map f) value = StringForm.rule a name given value := by
  unfold StringForm.rule StringForm.patternRule StringForm.hexRule StringForm.isoDateRule
    StringForm.caseRule StringForm.test
  rw [Given.pattern?_map, h.requireSize, h.require, h.report, h.convert_prefs]
  rfl

/-! ### Arguments -/

/-- An argument resolves to the same, but for the schema it may hold. -/
theorem resolveArgument {arg : Argument Schema} {p : Parameter}
    (harg : p.kind ≠ .subject → ∀ r ∈ arg.reference?, r ∈ a.node.resolved) (value : Value) :
    b.resolveArgument value p (arg.map f) = a.resolveArgument value p arg := by
  cases arg with
  | reference r =>
    show b.resolveArgument value p (.reference r) = _
    unfold Site.resolveArgument
    dsimp only
    by_cases hkind : p.kind = .subject
    · rw [if_pos hkind, if_pos hkind]
    · rw [if_neg hkind, if_neg hkind, h.resolve (harg hkind r rfl), h.report]
  | _ => rfl

/-- The arguments of a rule resolve to the same, up to the first that does not resolve. -/
theorem resolveArguments {parameters : List Parameter} {args : List (Argument Schema)}
    (hargs : ∀ p arg, (p, arg) ∈ parameters.zip args → p.kind ≠ .subject → ∀ r ∈ arg.reference?,
      r ∈ a.node.resolved) (value : Value) :
    b.resolveArguments value parameters (args.map (Argument.map f)) =
      (a.resolveArguments value parameters args).map (Given.map f) := by
  have hstored : (parameters.map (·.name)).zip (args.map (Argument.map f)) =
      mapChildren (Argument.map f) ((parameters.map (·.name)).zip args) := by
    rw [List.zip_map_right]
    rfl
  have hvalues : ((parameters.zip args).map (Prod.map id (Argument.map f))).mapM
        (fun pair => do return (pair.1.name, ← b.resolveArgument value pair.1 pair.2) :
          Parameter × Argument Schema → Except Report (String × Value)) =
      (parameters.zip args).mapM fun pair => do
        return (pair.1.name, ← a.resolveArgument value pair.1 pair.2) := by
    -- by induction on the pairs, as the arguments change one by one
    generalize parameters.zip args = pairs at hargs
    induction pairs with
    | nil => rfl
    | cons pair rest ih =>
      obtain ⟨p, arg⟩ := pair
      rw [List.map_cons, List.mapM_cons, List.mapM_cons,
        ih fun p arg hmem => hargs p arg (List.mem_cons_of_mem _ hmem)]
      dsimp only [Prod.map, id]
      rw [h.resolveArgument (hargs p arg (List.mem_cons_self ..))]
  unfold Site.resolveArguments
  rw [List.zip_map_right, hvalues, hstored]
  cases (parameters.zip args).mapM fun pair => do
    return (pair.1.name, ← a.resolveArgument value pair.1 pair.2) with
  | error report => rfl
  | ok values => rfl

end Site.Alike

end Conform
