import Conform.Check.Node
import Conform.Proofs.Regular

/-!
# What the steps of a node report

Besides the check of the type and the rules, a node reports on presence, on denied values and on a
default that cannot be made, and the finish may put its own report in the place of the others. Each
of these steps says here once which reports it can give, and so do the types without schemas inside
(`Site.ScalarBase`) and the rules that look at the value alone (`Answer`).

The lemmas are read by two developments that ask different questions of the same reports: whether
there is only one of them, and whether any has a certain code. So they say everything that a step
can report, its code, its value and its context, and nothing of what is to be shown of it.

A rule answers in one of three ways: the value as it is, a value made anew, or a report of the site.
For rules that look at the value alone that is one inductive type with the codes as a parameter
(`Answer`), and each family of rules has a lemma that lists its codes. What is not opened here are
the rules of arrays and objects, which ask inner checks. For rules with one argument, resolving and
applying are said in one equation each, by which samples are evaluated too.
-/

namespace Conform.Site

variable {site : Site} {value : Value}

/-- A value that may not be there, or has to be, is reported, and nothing else is. -/
theorem checkPresence_error {reports : List Report}
    (h : site.checkPresence value = .error reports) :
    reports = [] ∨ ∃ code ∈ ["any.required", "any.unknown"],
    reports = [site.report code value] := by
  unfold checkPresence at h
  split at h
  · exact .inr ⟨"any.required", List.mem_cons_self .., (Except.error.inj h).symm⟩
  · exact .inr ⟨"any.unknown", List.mem_cons_of_mem _ (List.mem_cons_self ..),
      (Except.error.inj h).symm⟩
  · exact .inl (Except.error.inj h).symm
  · split at h
    · exact nomatch h
    · exact .inl (Except.error.inj h).symm
  · exact nomatch h

/-- The value goes on as it is, or an object stands in for a missing one. -/
theorem checkPresence_ok {next : Value} (h : site.checkPresence value = .ok next) :
    next = value ∨ next = .object [] := by
  unfold checkPresence at h
  split at h
  · exact nomatch h
  · exact nomatch h
  · exact nomatch h
  · split at h
    · exact .inr (Except.ok.inj h).symm
    · exact nomatch h
  · exact .inl (Except.ok.inj h).symm

/-- A value is denied because it is one of the denied ones, or none of the only ones. -/
theorem mem_denials {report : Report} (h : report ∈ site.denials value) :
    (∃ code ∈ ["any.empty", "any.invalid"],
      report = site.report code value [("invalids", .array site.node.denied.toValues)]) ∨
    report = site.report "any.allowOnly" value [("valids", .array site.node.allowed.toValues)] := by
  unfold denials at h
  rcases List.mem_append.mp h with hdenied | honly
  · split at hdenied
    · refine .inl ⟨_, ?_, List.mem_singleton.mp hdenied⟩
      split
      · exact List.mem_cons_self ..
      · exact List.mem_cons_of_mem _ (List.mem_cons_self ..)
    · exact absurd hdenied List.not_mem_nil
  · split at honly
    · exact .inr (List.mem_singleton.mp honly)
    · exact absurd honly List.not_mem_nil

theorem defaultValue_error {default : Default} {report : Report}
    (h : site.defaultValue default = .error report) :
    ∃ reason, report = site.report "any.default" .undefined [("error", .string reason)] := by
  unfold defaultValue at h
  split at h
  · exact nomatch h
  · exact nomatch h
  · split at h
    · exact nomatch h
    · split at h
      · exact nomatch h
      · exact ⟨_, (Except.error.inj h).symm⟩
  · exact nomatch h

/-- What the finish reports was reported already, is the node's own report with the code of one that
was, or is about a default that cannot be made. -/
theorem mem_finish {reports : List Report} {strip : Bool} {report : Report}
    (h : report ∈ (site.finish value reports strip).reports) :
    report ∈ reports ∨
    (∃ first ∈ reports, ∃ value message,
      report = { site.report first.code value with message := some message }) ∨
    ∃ reason, report = site.report "any.default" .undefined [("error", .string reason)] := by
  -- recovery keeps the reports or drops them
  have hrecover : ∀ r ∈ (site.recover value reports).2, r ∈ reports := by
    unfold recover
    split
    · exact fun r hr => hr
    · split
      · exact List.forall_mem_nil _
      · exact fun r hr => hr
  -- a message of its own stands for the first report
  have hmessage (value : Value) {given : List Report} (hgiven : ∀ r ∈ given, r ∈ reports) :
      ∀ r ∈ site.withOwnMessage value given, r ∈ reports ∨
        ∃ first ∈ reports, ∃ value message, r =
          { site.report first.code value with message := some message } := by
    unfold withOwnMessage
    split
    next first _ template _ =>
      intro r hr
      exact .inr ⟨first, hgiven first (List.mem_cons_self ..), value, _, List.mem_singleton.mp hr⟩
    next => exact fun r hr => .inl (hgiven r hr)
  -- filling in adds at most the failure of the default
  have hfill (value : Value) (given : List Report) : ∀ r ∈ (site.fillIn value given).2, r ∈ given ∨
      ∃ reason, r = site.report "any.default" .undefined [("error", .string reason)] := by
    unfold fillIn
    split
    · exact fun r hr => .inl hr
    · split
      · exact fun r hr => .inl hr
      · exact fun r hr => .inl hr
      next failed hfailed =>
        intro r hr
        obtain ⟨default, -, hfails⟩ := Option.map_eq_some_iff.mp hfailed
        refine (List.mem_append.mp hr).imp_right fun hr => ?_
        obtain rfl := List.mem_singleton.mp hr
        exact defaultValue_error hfails
  rcases hfill _ _ report h with hgiven | hdefault
  · exact (hmessage _ hrecover report hgiven).imp_right .inl
  · exact .inr (.inr hdefault)

/-! ### Rules with one argument -/

theorem resolveArguments_one (site : Site) (value : Value) (p : Parameter) (arg : Argument Schema) :
    site.resolveArguments value [p] [arg] = (site.resolveArgument value p arg).map
      fun v => ⟨[(p.name, v)], [(p.name, arg)]⟩ := by
  unfold resolveArguments
  rw [List.zip_cons_cons, List.mapM_cons, List.zip_nil_left, List.mapM_nil]
  dsimp only
  cases site.resolveArgument value p arg with
  | error report => rfl
  | ok v => rfl

/-- The argument is resolved, and the rule is that of the type. -/
theorem applyRule_one {site : Site} {name : String} {spec : RuleSpec} {p : Parameter}
    (hspec : site.node.kind.rule? name = some spec) (hparameters : spec.parameters = [p])
    (hcustom : name ≠ "custom") (check : Check) (value : Value) (arg : Argument Schema) :
    site.applyRule check value ⟨name, [arg]⟩ = match site.resolveArgument value p arg with
      | .error report => pure (.error report)
      | .ok v => site.typeRule check name ⟨[(p.name, v)], [(p.name, arg)]⟩ value := by
  have hname := Kind.rule?_name hspec
  unfold applyRule
  rw [hspec]
  dsimp only
  rw [hparameters, resolveArguments_one, hname]
  cases site.resolveArgument value p arg with
  | error report => rfl
  | ok v => exact if_neg hcustom

end Conform.Site

namespace Conform

/-- The type has no schemas inside that its check would ask. -/
def Form.isScalar {σ : Type} : Form σ → Bool
  | .alternatives _ | .array _ | .lazy _ | .object _ => false
  | _ => true

namespace Site

/-- What the check of such a type comes to: the value as it is, or made anew where
the node converts, or the value with one report of the site, in a context that
leaves the key to the report. -/
inductive ScalarBase (site : Site) (value : Value) : Outcome → Prop
  | same : site.ScalarBase value { value }
  | anew (other : Value) : site.prefs.convert = true → site.ScalarBase value { value := other }
  | failure {code : String} {context : List (String × Value)} : "key" ∉ Members.keys context →
      site.ScalarBase value (.failure value (site.report code value context))

variable {site : Site}

theorem ScalarBase.reported {value : Value} (code : String) :
    site.ScalarBase value (.failure value (site.report code value)) :=
  .failure List.not_mem_nil

theorem scalarBase_number (allowUnsafe : Bool) (value : Value) :
    site.ScalarBase value (NumberCheck.base allowUnsafe site value) := by
  unfold NumberCheck.base
  split
  · split
    · exact .reported _
    · split
      · exact .reported _
      · split
        · exact .reported _
        · split
          next hconvert _ => exact .anew _ hconvert
          next => exact .same
  · exact .reported _

theorem checkBase_scalar (hscalar : site.node.form.isScalar = true)
    (check : Check) (value : Value) :
    ∃ o, site.checkBase check value = pure o ∧ site.ScalarBase value o := by
  unfold checkBase
  revert hscalar
  cases site.node.form with
  | any => exact fun _ => ⟨_, rfl, .same⟩
  | alternatives form | array form | lazy form | object form => exact fun hnever => nomatch hnever
  | binary encoding =>
    refine fun _ => ⟨_, rfl, ?_⟩
    cases value with
    | binary bytes => exact .same
    | _ => exact .reported _
  | boolean form =>
    refine fun _ => ⟨_, rfl, ?_⟩
    cases value with
    | bool b => exact .same
    | _ => exact .reported _
  | string form =>
    refine fun _ => ⟨_, rfl, ?_⟩
    cases value with
    | string text => exact .same
    | _ => exact .reported _
  | date format =>
    refine fun _ => ⟨_, rfl, ?_⟩
    unfold DateCheck.base
    split
    · exact .same
    · split
      · exact .failure (by simp [Members.keys])
      · exact .reported _
  | number allowUnsafe => exact fun _ => ⟨_, rfl, scalarBase_number allowUnsafe value⟩

end Site

/-- What a rule says of a value: it goes on as it is, or is made anew where it may be, or the site
reports it with one of the codes, and with a context that leaves the key to the report. -/
inductive Answer (site : Site) (value : Value) (codes : String → Prop) (anew : Prop) :
    Except Report Value → Prop
  | same : Answer site value codes anew (.ok value)
  | anew (other : Value) : anew → Answer site value codes anew (.ok other)
  | report {code : String} {context : List (String × Value)} : codes code →
      "key" ∉ Members.keys context →
      Answer site value codes anew (.error (site.report code value context))

namespace Answer

variable {site : Site} {value : Value} {codes : String → Prop} {anew : Prop}
  {code : String} (h : codes code)

include h

theorem require (passes : Bool) :
    Answer site value codes anew (site.require code value passes) := by
  unfold Site.require
  split
  · exact .same
  · exact .report h (by simp [Members.keys])

theorem limit (bound : Value) :
    Answer site value codes anew (.error (site.limitReport code value bound)) :=
  .report h (by simp [Members.keys])

theorem requireSize (bound : Nat) (passes : Bool) :
    Answer site value codes anew (site.requireSize code value bound passes) := by
  unfold Site.requireSize
  split
  · exact .same
  · exact .limit h _

omit h

variable (site value) (name : String) (given : Given)

theorem binaryRule :
    Answer site value (fun _ => True) False (Binary.rule site name given value) := by
  unfold Binary.rule
  dsimp only
  split
  · exact .requireSize trivial ..
  · exact .requireSize trivial ..
  · exact .requireSize trivial ..
  · exact .same

theorem dateRule :
    Answer site value (fun _ => True) False (DateCheck.rule site name given value) := by
  have hcompare (code : String) (passes : Int → Int → Bool) :
      Answer site value (fun _ => True) False (DateCheck.compare site code given value passes) := by
    unfold DateCheck.compare
    split
    · exact .limit trivial _
    · split
      · exact .same
      · exact .limit trivial _
  unfold DateCheck.rule
  split
  · exact hcompare ..
  · exact hcompare ..
  · exact hcompare ..
  · exact hcompare ..
  · exact .same

theorem numberRule :
    Answer site value (fun _ => True) False (NumberCheck.rule site name given value) := by
  have hcompare (code : String) (passes : Number → Number → Bool) :
      Answer site value (fun _ => True) False
      (NumberCheck.compare site code given value passes) := by
    unfold NumberCheck.compare
    dsimp only
    split
    · split
      · exact .same
      · exact .limit trivial _
    · exact .limit trivial _
  have htest (code : String) (passes : Number → Bool) :
      Answer site value (fun _ => True) False (NumberCheck.test site code value passes) :=
      .require trivial _
  unfold NumberCheck.rule
  split
  · exact hcompare ..
  · exact hcompare ..
  · exact hcompare ..
  · exact hcompare ..
  · exact htest ..
  · exact .requireSize trivial ..
  · dsimp only
    split
    · exact .same
    · exact .report trivial (by simp [Members.keys])
  · exact htest ..
  · exact htest ..
  · exact htest ..
  · exact .same

theorem patternRule
    (hcodes : ∀ code ∈ ["string.regex.name", "string.regex.base", "string.regex.invert.name",
    "string.regex.invert.base"], codes code) :
    Answer site value codes anew (StringForm.patternRule site given value) := by
  unfold StringForm.patternRule
  split
  · exact .same
  · dsimp only
    split
    · exact .same
    · cases given.isTrue "invert" with
      | true => split <;> exact .report (hcodes _ (by decide)) (by simp [Members.keys])
      | false => split <;> exact .report (hcodes _ (by decide)) (by simp [Members.keys])

/-- The length and white space at the ends have rules and codes of their own, and date texts
alone are written anew. -/
theorem stringRule :
    Answer site value (fun code => (code = "string.max" → name = "max") ∧
      (code = "string.trim" → name = "trim"))
      (site.prefs.convert = true ∧ name = "isoDate") (StringForm.rule site name given value) := by
  unfold StringForm.rule
  dsimp only
  split
  · exact .requireSize (by decide) ..
  · exact .requireSize (by decide) ..
  · exact .requireSize (by decide) ..
  · exact .patternRule _ _ _ (by decide)
  · exact .require (by decide) _
  · exact .require (by decide) _
  · unfold StringForm.hexRule
    dsimp only
    split
    · exact .report (by decide) (by simp [Members.keys])
    · exact .require (by decide) _
  · exact .require (by decide) _
  · exact .require (by decide) _
  · unfold StringForm.isoDateRule
    split
    · split
      next hconvert => exact .anew _ ⟨hconvert, rfl⟩
      next => exact .same
    · exact .report (by decide) (by simp [Members.keys])
  · unfold StringForm.caseRule
    dsimp only
    split
    · exact .require (by decide) _
    · exact .require (by decide) _
  · split
    · exact .require (by decide) _
    · exact .same
  · exact .same

end Answer

end Conform
