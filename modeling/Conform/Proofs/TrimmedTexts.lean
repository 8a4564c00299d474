import Conform.Proofs.Blanks
import Conform.Proofs.Nearest
import Conform.Proofs.NodeReports
import Conform.Proofs.Whereabouts
import Conform.Proofs.Wrappers

/-!
# Trimmed, then cut

A string schema may trim texts and cut them to its own limit. It trims first, so what is cut off
last is never too long, but the cut may leave white space behind: just if the text is longer than
the limit and the last character within it is white space. Then, and only then, the rule of trimming
reports the text that converting gave, and the rule of the limit never does.

There are two parts to it. The first is about a node that trims and cuts (`Schema.Cuts`), whatever
rules it has besides. Converting gives the text trimmed and cut, and then each rule is looked at for
the two codes in question. Most rules have codes of their own. The rule of trimming reports white
space at an end, and the rule of the limit counts characters, which by then are no more than it
allows. What comes after the rules takes its codes from what was reported, so the two codes are
followed through the steps of the node with one property of reports (`AllNoMaxNorTrim`).

The second part is about the calls by which such schemas come about. Trimming, cutting and
limiting may be called in any order and more than once; the last limit counts, and the rules
that are left are the same in some order (`Comes`). With nothing else called for, the outcome
can be written down whole.

Main statement: `trimmed_then_cut`.
-/

namespace Conform

namespace Text

/-- Where a trimmed text is cut, white space is at the end just if the cut stands behind it. -/
theorem blankBehind_take {cs : List Char} (htrimmed : ¬ BlankBehind cs) (n : Nat) :
    BlankBehind (cs.take n) ↔ n < cs.length ∧ ∃ k c, n = k + 1 ∧ cs[k]? = some c ∧
    isBlank c = true := by
  by_cases hlong : n < cs.length
  · rw [and_iff_right hlong]
    cases n with
    | zero =>
      refine iff_of_false ?_ (fun ⟨_, _, h, _⟩ => nomatch h)
      rintro ⟨c, hc, -⟩
      exact nomatch hc
    | succ k =>
      have hlast : (cs.take (k + 1)).getLast? = cs[k]? := by
        rw [List.take_add_one, List.getElem?_eq_getElem (by omega)]
        exact List.getLast?_concat
      unfold BlankBehind
      rw [hlast]
      constructor
      · rintro ⟨c, hc, hblank⟩
        exact ⟨k, c, rfl, hc, hblank⟩
      · rintro ⟨_, c, hk, hc, hblank⟩
        obtain rfl := Nat.succ.inj hk
        exact ⟨c, hc, hblank⟩
  · rw [List.take_of_length_le (Nat.not_lt.mp hlong)]
    exact iff_of_false htrimmed fun h => hlong h.1

theorem trim_beq (t : String) (hahead : ¬ BlankAhead t.toList) :
    (trim t == t) = true ↔ ¬ BlankBehind t.toList := by
  rw [beq_iff_eq]
  have hsame : trim t = t ↔ trimBlank t.toList = t.toList := by
    unfold trim
    exact ⟨fun h => by rw [← String.toList_ofList (l := trimBlank t.toList), h],
      fun h => by rw [h, String.ofList_toList]⟩
  rw [hsame, trimBlank_eq_self_iff, and_iff_right hahead]

end Text

/-! ### Schemas that trim and cut -/

/-- The rule of trimming. -/
def Rule.trim : Rule Schema := ⟨"trim", [.literal (.bool true)]⟩

/-- The rule of a limit. -/
def Rule.max (n : Number) : Rule Schema := ⟨"max", [.literal (.number n)]⟩

/-- A string schema that trims texts, and cuts them to a limit given as a number; it has no
replacements, and none of its rules puts another text in the place of one. -/
structure Schema.Cuts (s : Schema) (n : Number) : Prop where
  form : s.node.form = .string { truncate := true }
  trims : Rule.trim ∈ s.node.rules
  trimOnly : ∀ rule ∈ s.node.rules, rule.name = "trim" → rule = .trim
  limits : Rule.max n ∈ s.node.rules
  maxOnly : ∀ rule ∈ s.node.rules, rule.name = "max" → rule = .max n
  known : ArgumentKind.limit.rejection? (.number n) = none
  keeps : ∀ rule ∈ s.node.rules, rule.name ≠ "isoDate" ∧ rule.name ≠ "custom"

/-- The text trimmed, in the schema's case, and cut to the limit. -/
def Schema.cut (s : Schema) (n : Number) (text : String) : String :=
  String.ofList ((Text.trim (StringForm.inCase s text)).toList.take n.toCount)

/-- What comes of it is not too long. -/
theorem Schema.length_cut (s : Schema) (n : Number) (text : String) :
    (s.cut n text).length ≤ n.toCount := by
  unfold cut
  rw [← String.length_toList, String.toList_ofList]
  exact List.length_take_le ..

/-- What comes of it does not begin with white space. -/
theorem Schema.not_blankAhead_cut (s : Schema) (n : Number) (text : String) :
    ¬ Text.BlankAhead (s.cut n text).toList := by
  intro hahead
  unfold cut Text.trim at hahead
  rw [String.toList_ofList, String.toList_ofList] at hahead
  exact Text.not_blankAhead_trimBlank _ (hahead.of_prefix (List.take_prefix ..))

/-- What comes of it ends with white space just if the cut leaves some. -/
theorem Schema.blankBehind_cut (s : Schema) (n : Number) (text : String) :
    Text.BlankBehind (s.cut n text).toList ↔
      n.toCount < (Text.trim (StringForm.inCase s text)).length ∧ ∃ k c, n.toCount = k + 1 ∧
        (Text.trim (StringForm.inCase s text)).toList[k]? = some c ∧ Text.isBlank c = true := by
  unfold cut Text.trim
  rw [String.toList_ofList, ← String.length_toList, String.toList_ofList]
  exact Text.blankBehind_take (Text.not_blankBehind_trimBlank _) _

/-- A limit is a finite number that is not negative. -/
theorem limit_of_known {n : Number} (h : ArgumentKind.limit.rejection? (.number n) = none) :
    n.isFinite = true ∧ Number.zero.le n = true := by
  unfold ArgumentKind.rejection? at h
  dsimp only at h
  split at h
  next hall =>
    rw [Bool.and_eq_true, Bool.and_eq_true] at hall
    exact hall.1
  · exact nomatch h

theorem Schema.rule?_of_only {s : Schema} {name : String} {rule : Rule Schema}
    (hrule : rule ∈ s.node.rules)
    (hname : rule.name = name) (honly : ∀ other ∈ s.node.rules, other.name = name → other = rule) :
    s.rule? name = some rule := by
  unfold rule?
  cases hfound : s.node.rules.reverse.find? fun other => other.name == name with
  | none =>
    rw [List.find?_eq_none] at hfound
    exact absurd (beq_iff_eq.mpr hname) (hfound rule (List.mem_reverse.mpr hrule))
  | some other =>
    have hother := List.find?_some hfound
    rw [honly other (List.mem_reverse.mp (List.mem_of_find?_eq_some hfound)) (beq_iff_eq.mp hother)]

/-- Converting trims and cuts. -/
theorem Schema.Cuts.convert {s : Schema} {n : Number} (h : s.Cuts n) (site : Site)
    (hschema : site.schema = s) (hconvert : site.prefs.convert = true) (text : String) :
    site.convert (.string text) = .ok (.string (s.cut n text)) := by
  have htrim : StringForm.trimmed s (StringForm.inCase s text) =
      Text.trim (StringForm.inCase s text) := by
    unfold StringForm.trimmed
    rw [show s.rule? "trim" = some .trim from rule?_of_only h.trims rfl h.trimOnly]
    rfl
  have hlimit (t : String) : StringForm.cutLimit? site t = some n.toCount := by
    unfold StringForm.cutLimit?
    rw [hschema, show s.rule? "max" = some (.max n) from rule?_of_only h.limits rfl h.maxOnly]
    exact if_pos (Bool.and_eq_true _ _ ▸ limit_of_known h.known)
  have hform : site.node.form = .string { truncate := true } := by
    unfold Site.node
    rw [hschema]
    exact h.form
  unfold Site.convert
  rw [hconvert, hform]
  show Except.ok (StringForm.coerce _ site (.string text)) = _
  unfold StringForm.coerce StringForm.cut
  dsimp only
  rw [hschema, htrim, if_pos rfl, hlimit]
  rfl

/-! ### What rules say of a text -/

/-- The code is not that of a text that is too long, nor, unless white space was left, that
of one to be trimmed. -/
def NoMaxNorTrim (blank : Prop) (code : String) : Prop :=
    code ≠ "string.max" ∧ (code = "string.trim" → blank)

theorem noMaxNorTrim_of_not_mem {blank : Prop} (code : String)
    (h : code ∉ ["string.max", "string.trim"]) : NoMaxNorTrim blank code := by
  rw [List.mem_cons, List.mem_singleton, not_or] at h
  exact ⟨h.1, fun htrim => absurd htrim h.2⟩

/-- No report is of a text that is too long, nor, unless white space was left,
of one to be trimmed. -/
def AllNoMaxNorTrim (blank : Prop) (reports : List Report) : Prop :=
    ∀ report ∈ reports, NoMaxNorTrim blank report.code

/-- The value goes on as it is, or the report has neither of the two codes, white
space at the end apart. -/
def KeptOrNoMaxNorTrim (blank : Prop) (value : Value) : Except Report Value → Prop
  | .ok next => next = value
  | .error report => NoMaxNorTrim blank report.code

/-- The other rules of texts leave the text, and have codes of their own. -/
theorem keptOr_stringRule {blank : Prop} {site : Site} {value : Value} {name : String}
    (hmax : name ≠ "max") (htrim : name ≠ "trim") (hdate : name ≠ "isoDate") (given : Given) :
    KeptOrNoMaxNorTrim blank value (StringForm.rule site name given value) := by
  have hanswer := Answer.stringRule site value name given
  generalize StringForm.rule site name given value = r at hanswer
  cases hanswer with
  | same => exact Eq.refl value
  | anew other hanew => exact absurd hanew.2 hdate
  | report hcode _ => exact ⟨fun h => hmax (hcode.1 h), fun h => absurd (hcode.2 h) htrim⟩

/-! ### The two rules -/

section

variable {site : Site} {form : StringForm} (hform : site.node.form = .string form)

include hform

/-- The rule of trimming asks whether there is white space at an end. -/
theorem Site.applyRule_trim (check : Check) (t : String) :
    site.applyRule check (.string t) .trim =
      pure (site.require "string.trim" (.string t) (Text.trim t == t)) := by
  have hkind : site.node.kind = .string := congrArg Form.kind hform
  have hspec : site.node.kind.rule? "trim" = some (switchRule "trim" "enabled") := hkind ▸ rfl
  unfold Rule.trim
  rw [applyRule_one hspec rfl (by decide)]
  show site.typeRule check "trim" _ (.string t) = _
  unfold typeRule
  rw [hform]
  rfl

/-- The rule of a limit counts characters. -/
theorem Site.applyRule_max (check : Check) (n : Number) (t : String) :
    site.applyRule check (.string t) (.max n) = pure (site.requireSize "string.max" (.string t)
      n.toCount (decide (t.length ≤ n.toCount))) := by
  have hkind : site.node.kind = .string := congrArg Form.kind hform
  have hspec : site.node.kind.rule? "max" =
      some { name := "max", parameters := limitParameter .limit } :=
    hkind ▸ rfl
  unfold Rule.max
  rw [applyRule_one hspec rfl (by decide)]
  show site.typeRule check "max" _ (.string t) = _
  unfold typeRule
  rw [hform]
  rfl

end

/-- An argument that does not fit is reported with a code of its own. -/
theorem Site.resolveArguments_noMaxNorTrim {blank : Prop} {site : Site} {value : Value}
    {parameters : List Parameter} {args : List (Argument Schema)} {report : Report}
    (h : site.resolveArguments value parameters args = .error report) :
    NoMaxNorTrim blank report.code := by
  unfold resolveArguments at h
  rcases Attempt.bind_error h with hvalues | ⟨values, -, hpure⟩
  · obtain ⟨⟨p, arg⟩, -, hpair⟩ := Attempt.mapM_error hvalues
    rcases Attempt.bind_error hpair with hargument | ⟨v, -, hpure⟩
    · unfold resolveArgument at hargument
      split at hargument
      · exact nomatch hargument
      · split at hargument
        · exact nomatch hargument
        · dsimp only at hargument
          split at hargument
          · exact nomatch hargument
          · exact Except.error.inj hargument ▸ noMaxNorTrim_of_not_mem "any.ref" (by decide)
      · exact nomatch hargument
    · exact nomatch hpure
  · exact nomatch hpure

namespace Site

variable {blank : Prop} {site : Site}

/-- The finish takes codes from what was reported, or reports a default. -/
theorem finish_noMaxNorTrim (value : Value) {reports : List Report}
    (hreports : AllNoMaxNorTrim blank reports) (strip : Bool) :
    AllNoMaxNorTrim blank (site.finish value reports strip).reports := by
  intro report hreport
  rcases mem_finish hreport with hgiven | ⟨first, hfirst, _, _, rfl⟩ | ⟨_, rfl⟩
  · exact hreports report hgiven
  · exact hreports first hfirst
  · exact noMaxNorTrim_of_not_mem "any.default" (by decide)

theorem denials_noMaxNorTrim (value : Value) : AllNoMaxNorTrim blank (site.denials value) := by
  have hcodes : ∀ code ∈ ["any.empty", "any.invalid"],
      code ∉ ["string.max", "string.trim"] := by decide
  intro report hreport
  rcases mem_denials hreport with ⟨code, hcode, rfl⟩ | rfl
  · exact noMaxNorTrim_of_not_mem code (hcodes code hcode)
  · exact noMaxNorTrim_of_not_mem "any.allowOnly" (by decide)

theorem checkPresence_noMaxNorTrim {value : Value} {reports : List Report}
    (h : site.checkPresence value = .error reports) : AllNoMaxNorTrim blank reports := by
  have hcodes : ∀ code ∈ ["any.required", "any.unknown"],
      code ∉ ["string.max", "string.trim"] := by decide
  rcases checkPresence_error h with rfl | ⟨code, hcode, rfl⟩
  · exact List.forall_mem_nil _
  · exact List.forall_mem_singleton.mpr (noMaxNorTrim_of_not_mem code (hcodes code hcode))

end Site

namespace Schema.Cuts

variable {s : Schema} {n : Number} (h : s.Cuts n) {site : Site} (hschema : site.schema = s)
  (check : Check) {t : String}
  (hlength : t.length ≤ n.toCount) (hahead : ¬ Text.BlankAhead t.toList)

include h hschema hlength hahead

/-- Each rule leaves a text that was cut, or says something else of it. -/
theorem applyRule {rule : Rule Schema} (hrule : rule ∈ s.node.rules) :
    ∃ r, site.applyRule check (.string t) rule = pure r ∧
      KeptOrNoMaxNorTrim (Text.BlankBehind t.toList) (.string t) r := by
  have hform : site.node.form = .string { truncate := true } := by
    unfold Site.node
    rw [hschema, h.form]
  -- the text fits into the limit
  by_cases hmax : rule.name = "max"
  · refine ⟨.ok (.string t), ?_, rfl⟩
    rw [h.maxOnly rule hrule hmax, Site.applyRule_max hform, decide_eq_true hlength]
    rfl
  -- and does not begin with white space
  by_cases htrim : rule.name = "trim"
  · refine ⟨_, h.trimOnly rule hrule htrim ▸ Site.applyRule_trim hform check t, ?_⟩
    unfold Site.require
    split
    next => exact Eq.refl (Value.string t)
    next hnot =>
      refine ⟨(by decide : "string.trim" ≠ "string.max"), fun _ => ?_⟩
      rw [Text.trim_beq t hahead, not_not] at hnot
      exact hnot
  -- other rules do not report these two codes
  unfold Site.applyRule
  split
  · exact ⟨_, rfl, rfl⟩
  next spec hspec =>
    have hname := Kind.rule?_name hspec
    split
    next report hreport => exact ⟨_, rfl, Site.resolveArguments_noMaxNorTrim hreport⟩
    next given _ =>
      rw [if_neg (hname ▸ (h.keeps rule hrule).2)]
      unfold Site.typeRule
      rw [hform]
      exact ⟨_, rfl, keptOr_stringRule (hname ▸ hmax) (hname ▸ htrim)
        (hname ▸ (h.keeps rule hrule).1) given⟩

theorem applyRules {rules : List (Rule Schema)} (hrules : ∀ rule ∈ rules, rule ∈ s.node.rules)
    {reports : List Report} (hreports : AllNoMaxNorTrim (Text.BlankBehind t.toList) reports) :
    Leaves site.env (fun _ => True) (fun r => AllNoMaxNorTrim (Text.BlankBehind t.toList) r.2)
      (site.applyRules check (.string t) reports rules) := by
  induction rules generalizing reports with
  | nil => exact .pure hreports
  | cons rule rest ih =>
    obtain ⟨r, hrun, hkept⟩ :=
      h.applyRule hschema check hlength hahead (hrules rule (List.mem_cons_self ..))
    have ih {reports : List Report} :=
      @ih (fun other hother => hrules other (List.mem_cons_of_mem _ hother)) reports
    unfold Site.applyRules
    rw [hrun, pure_bind]
    cases r with
    | ok next =>
      obtain rfl : next = .string t := hkept
      exact ih hreports
    | error report =>
      have hall : AllNoMaxNorTrim (Text.BlankBehind t.toList) (reports ++ [report]) :=
        List.forall_mem_append.mpr ⟨hreports, List.forall_mem_singleton.mpr hkept⟩
      dsimp only
      split
      · exact .pure hall
      · exact ih hall

/-- The text, and whatever a schema may make of it that is no text, is
reported under neither code. -/
theorem checkPresent {value : Value} (hvalue : value = .string t ∨ value.string? = none) :
    Leaves site.env (fun _ => True) (fun o => AllNoMaxNorTrim (Text.BlankBehind t.toList) o.reports)
      (site.checkPresent check value) := by
  have hform : site.node.form = .string { truncate := true } := by
    unfold Site.node
    rw [hschema, h.form]
  -- the text goes through the rules, and what is denied comes before
  have hcontent {reports : List Report}
      (hreports : AllNoMaxNorTrim (Text.BlankBehind t.toList) reports) :
      Leaves site.env (fun _ => True)
      (fun o => AllNoMaxNorTrim (Text.BlankBehind t.toList) o.reports)
        (site.checkContent check value reports) := by
    unfold Site.checkContent Site.checkBase
    rw [hform]
    dsimp only
    rw [pure_bind]
    rcases hvalue with rfl | hother
    · have hrules : ∀ rule ∈ site.node.rules, rule ∈ s.node.rules := by
        unfold Site.node
        rw [hschema]
        exact fun _ hrule => hrule
      show Leaves _ _ _ (site.applyRules check (.string t) reports site.node.rules >>= _)
      refine (h.applyRules hschema check hlength hahead hrules hreports).bind ?_
      exact fun r hr => .pure (Site.finish_noMaxNorTrim _ hr _)
    · -- what is no text fails as such
      obtain ⟨report, hbase, hcode⟩ : ∃ report, StringForm.base site value = .failure value report ∧
          report.code = "string.base" := by
        cases value with
        | string text => exact nomatch hother
        | _ => exact ⟨_, rfl, rfl⟩
      rw [hbase]
      have hbase : NoMaxNorTrim (Text.BlankBehind t.toList) report.code :=
        hcode ▸ noMaxNorTrim_of_not_mem "string.base" (by decide)
      refine .pure (Site.finish_noMaxNorTrim _ (List.forall_mem_append.mpr ⟨hreports, ?_⟩) _)
      exact List.forall_mem_singleton.mpr hbase
  unfold Site.checkPresent
  split
  · exact .pure (Site.finish_noMaxNorTrim _ (List.forall_mem_nil _) _)
  · have hdenials : AllNoMaxNorTrim (Text.BlankBehind t.toList) (site.denials value) :=
      Site.denials_noMaxNorTrim value
    split
    next report rest hdenied _ =>
      rw [hdenied] at hdenials
      refine .pure (Site.finish_noMaxNorTrim _ (List.forall_mem_singleton.mpr ?_) _)
      exact hdenials report (List.mem_cons_self ..)
    next => exact hcontent hdenials

/-- All steps of a node. -/
theorem run (hconverted : site.convert site.input = .ok (.string t)) :
    Leaves site.env (fun _ => True) (fun o => AllNoMaxNorTrim (Text.BlankBehind t.toList) o.reports)
      (site.run check) := by
  have hempty : Leaves site.env (fun _ => True)
      (fun value => value = .string t ∨ value = .undefined) (site.dropEmpty check (.string t)) := by
    unfold Site.dropEmpty
    split
    · refine (Leaves.anything _).bind fun passed _ => ?_
      split
      · exact .pure (.inr rfl)
      · exact .pure (.inl rfl)
    · exact .pure (.inl rfl)
  unfold Site.run
  rw [hconverted]
  refine hempty.bind fun value hvalue => ?_
  cases hpresence : site.checkPresence value with
  | error reports =>
    exact .pure (Site.finish_noMaxNorTrim _ (Site.checkPresence_noMaxNorTrim hpresence) _)
  | ok next =>
    refine h.checkPresent hschema check hlength hahead ?_
    rcases Site.checkPresence_ok hpresence with rfl | rfl
    · rcases hvalue with rfl | rfl
      · exact .inl rfl
      · exact .inr rfl
    · exact .inr rfl

end Schema.Cuts

/-- Of a text that converting gave, whatever else the schema asks, the limit is not reported, and
trimming only where the cut left white space. -/
theorem Schema.Cuts.reports {s : Schema} {n : Number} (h : s.Cuts n) {env : Environment}
    {fuel : Nat} {text : String}
    {position : Position} {prefs : Preferences}
    (hconvert : (prefs.merged s.node.prefs).convert = true) {w w' : Workshop} {o : Outcome}
    (hrun : (Check.within env fuel s (.string text) position prefs).run w = some (o, w')) :
    AllNoMaxNorTrim (Text.BlankBehind (s.cut n text).toList) o.reports := by
  cases fuel with
  | zero => exact nomatch hrun
  | succ fuel =>
    have hconverted :=
      h.convert ⟨env, s, position, prefs.merged s.node.prefs, .string text⟩ rfl hconvert text
    exact (h.run rfl _ (s.length_cut n text) (s.not_blankAhead_cut n text) hconverted).out hrun

/-! ### Schemas made by the three calls -/

/-- The calls that trim, that cut, and that set the limit to cut to. -/
inductive CutCall
  | trim
  | truncate
  | max (limit : Number)
  deriving DecidableEq

namespace CutCall

def call : CutCall → Call
  | .trim => .rule (.switch "trim" (by decide) true)
  | .truncate => .truncate
  | .max limit => .rule (.limit "max" (by decide) (.literal (.number limit)))

def limit? : CutCall → Option Number
  | .max limit => some limit
  | _ => none

/-- The limit that the last call sets. -/
def lastLimit? (calls : List CutCall) : Option Number := (calls.filterMap limit?).getLast?

/-- A schema after these calls. -/
def applyAll (calls : List CutCall) (s : Schema) : Except SchemaError Schema :=
  calls.foldlM (fun s added => added.call.apply s) s

/-- The rules that calls leave. -/
def rules (calls : List CutCall) : List (Rule Schema) :=
  (if .trim ∈ calls then [.trim] else []) ++ (lastLimit? calls).toList.map .max

/-- The node of a string schema with these rules, which may cut. -/
def nodeOf (cuts : Bool) (rules : List (Rule Schema)) : Node Schema :=
  { Schema.string.node with form := .string { truncate := cuts }, rules }

/-- The schema is a string schema after these calls, its rules being in some order. -/
structure Comes (calls : List CutCall) (s : Schema) : Prop where
  node : ∃ rules, s.node = nodeOf (decide (.truncate ∈ calls)) rules ∧
    rules.Perm (CutCall.rules calls)
  known : ∀ n ∈ lastLimit? calls, ArgumentKind.limit.rejection? (.number n) = none

theorem Comes.kind {calls : List CutCall} {s : Schema} (h : Comes calls s) : s.kind = .string := by
  obtain ⟨rules, hnode, -⟩ := h.node
  unfold Schema.kind
  rw [hnode]
  rfl

/-- A rule takes the place of that of its name. -/
theorem perm_appendRule {rules others : List (Rule Schema)} (h : rules.Perm others)
    (rule : Rule Schema) :
    (Node.appendRule rules rule false).Perm
      ((others.filter fun r => r.name != rule.name) ++ [rule]) :=
  (h.filter _).append_right _

/-- One call more: the form is set, or the rule of its name is put in anew. -/
theorem Comes.step {calls : List CutCall} {s t : Schema} (h : Comes calls s) {added : CutCall}
    (happly : added.call.apply s = .ok t) : Comes (calls ++ [added]) t := by
  obtain ⟨rules, hnode, hperm⟩ := h.node
  cases added with
  | truncate =>
    obtain rfl : s.truncate = t := Except.ok.inj happly
    have hlimit : lastLimit? (calls ++ [.truncate]) = lastLimit? calls := by
      simp [lastLimit?, limit?]
    have hrules : CutCall.rules (calls ++ [.truncate]) = CutCall.rules calls := by
      unfold CutCall.rules
      simp [hlimit]
    refine ⟨⟨rules, ?_, hrules ▸ hperm⟩, hlimit ▸ h.known⟩
    unfold Schema.truncate Schema.updateString Schema.updateForm Schema.update
    rw [hnode, decide_eq_true (List.mem_concat_self)]
    rfl
  | trim =>
    have hspec : s.kind.rule? "trim" = some (switchRule "trim" "enabled") := h.kind ▸ rfl
    obtain ⟨-, rfl⟩ := (Schema.withRule_ok hspec).mp happly
    have hlimit : lastLimit? (calls ++ [.trim]) = lastLimit? calls := by simp [lastLimit?, limit?]
    refine ⟨⟨Node.appendRule rules .trim false, ?_, ?_⟩, hlimit ▸ h.known⟩
    · rw [hnode]
      simp [nodeOf, Rule.trim, switchRule]
    · -- trimming takes the place of earlier trimming, whatever the limit
      refine (perm_appendRule hperm .trim).trans ?_
      have hothers : (CutCall.rules calls).filter (fun r => r.name != "trim") =
          (lastLimit? calls).toList.map .max := by
        unfold CutCall.rules
        cases lastLimit? calls <;> split <;> simp [Rule.trim, Rule.max]
      rw [show Rule.trim.name = "trim" from rfl, hothers]
      unfold CutCall.rules
      rw [hlimit, if_pos (List.mem_concat_self)]
      exact List.perm_append_comm
  | max limit =>
    have hspec : s.kind.rule? "max" = some { name := "max", parameters := limitParameter .limit } :=
      h.kind ▸ rfl
    obtain ⟨hcheck, rfl⟩ := (Schema.withRule_ok hspec).mp happly
    have hlimit : lastLimit? (calls ++ [.max limit]) = some limit := by simp [lastLimit?, limit?]
    refine ⟨⟨Node.appendRule rules (.max limit) false, ?_, ?_⟩, ?_⟩
    · rw [hnode]
      simp [nodeOf, Rule.max, SetItem.argument]
    · -- a limit takes the place of an earlier one
      refine (perm_appendRule hperm (.max limit)).trans ?_
      have hothers : (CutCall.rules calls).filter (fun r => r.name != "max") =
          if .trim ∈ calls then [.trim] else [] := by
        unfold CutCall.rules
        cases lastLimit? calls <;> split <;> simp [Rule.trim, Rule.max]
      rw [show (Rule.max limit).name = "max" from rfl, hothers]
      unfold CutCall.rules
      simp [hlimit]
    · rw [hlimit]
      rintro n ⟨⟩
      exact (RuleSpec.check_literal (p :=
        { name := "limit", kind := .limit, references := true }) rfl rfl _).mp hcheck

/-- All calls, one after the other. -/
theorem Comes.applyAll {calls added : List CutCall} {s t : Schema} (h : Comes calls s)
    (happly : CutCall.applyAll added s = .ok t) : Comes (calls ++ added) t := by
  induction added generalizing calls s with
  | nil =>
    obtain rfl : s = t := Except.ok.inj happly
    rw [List.append_nil]
    exact h
  | cons first rest ih =>
    unfold CutCall.applyAll at happly
    rw [List.foldlM_cons] at happly
    obtain ⟨next, hnext, hrest⟩ := Attempt.bind_ok happly
    rw [List.append_cons]
    exact ih (h.step hnext) hrest

theorem comes_of_applyAll {calls : List CutCall} {s : Schema}
    (h : CutCall.applyAll calls Schema.string = .ok s) : Comes calls s := by
  have hstart : Comes [] Schema.string := ⟨⟨[], rfl, List.Perm.refl _⟩, fun _ hn => nomatch hn⟩
  exact hstart.applyAll h

theorem mem_rules {s : Schema} {n : Number} {rules : List (Rule Schema)}
    (hnode : s.node = nodeOf true rules) (hperm : rules.Perm [.trim, .max n]) (rule : Rule Schema) :
    rule ∈ s.node.rules ↔ rule = .trim ∨ rule = .max n := by
  rw [hnode]
  show rule ∈ rules ↔ _
  rw [hperm.mem_iff, List.mem_cons, List.mem_singleton]

section

variable {calls : List CutCall} {s : Schema} {n : Number} (h : Comes calls s)
  (htrim : .trim ∈ calls) (htruncate : .truncate ∈ calls) (hlimit : lastLimit? calls = some n)

include h htrim htruncate hlimit

theorem Comes.node_eq : ∃ rules, s.node = nodeOf true rules ∧ rules.Perm [.trim, .max n] := by
  obtain ⟨rules, hnode, hperm⟩ := h.node
  have hrules : CutCall.rules calls = [.trim, .max n] := by
    unfold CutCall.rules
    rw [if_pos htrim, hlimit]
    rfl
  exact ⟨rules, decide_eq_true htruncate ▸ hnode, hrules ▸ hperm⟩

/-- With all three kinds of calls, such a schema trims and cuts. -/
theorem Comes.cuts : s.Cuts n := by
  obtain ⟨rules, hnode, hperm⟩ := h.node_eq htrim htruncate hlimit
  have hmem := mem_rules hnode hperm
  refine ⟨by rw [hnode]; rfl, (hmem _).mpr (.inl rfl), ?_, (hmem _).mpr (.inr rfl), ?_,
    h.known n hlimit, ?_⟩
  · rintro rule hrule hname
    rcases (hmem rule).mp hrule with rfl | rfl
    · rfl
    · exact absurd hname (show "max" ≠ "trim" by decide)
  · rintro rule hrule hname
    rcases (hmem rule).mp hrule with rfl | rfl
    · exact absurd hname (show "trim" ≠ "max" by decide)
    · rfl
  · intro rule hrule
    rcases (hmem rule).mp hrule with rfl | rfl
    · exact ⟨show "trim" ≠ "isoDate" by decide, show "trim" ≠ "custom" by decide⟩
    · exact ⟨show "max" ≠ "isoDate" by decide, show "max" ≠ "custom" by decide⟩

end

section

variable {n : Number}

/-- One of the two rules comes first. -/
theorem pair_of_perm {rules : List (Rule Schema)} {a b : Rule Schema} (hperm : rules.Perm [a, b]) :
    rules = [a, b] ∨ rules = [b, a] := by
  obtain ⟨front, back, rfl⟩ := List.append_of_mem (hperm.mem_iff.mpr (List.mem_cons_self ..))
  have hother := List.perm_singleton.mp (List.perm_middle.symm.trans hperm).cons_inv
  rcases List.append_eq_singleton_iff.mp hother with ⟨rfl, rfl⟩ | ⟨rfl, rfl⟩
  · exact .inl rfl
  · exact .inr rfl

/-- Of the two rules that of trimming reports what white space was left, and that
of the limit nothing. -/
theorem applyRules_pair {site : Site} {form : StringForm}
    (hform : site.node.form = .string form) (check : Check)
    {rules : List (Rule Schema)} (hperm : rules.Perm [.trim, .max n]) {t : String}
    (hlength : t.length ≤ n.toCount) (hahead : ¬ Text.BlankAhead t.toList) :
    site.applyRules check (.string t) [] rules = pure (.string t,
      if Text.BlankBehind t.toList then [site.report "string.trim" (.string t)] else []) := by
  have hmax : site.applyRule check (.string t) (.max n) = pure (.ok (.string t)) := by
    rw [Site.applyRule_max hform, decide_eq_true hlength]
    rfl
  have htrim := Site.applyRule_trim hform check t
  unfold Site.require at htrim
  by_cases hblank : Text.BlankBehind t.toList
  · rw [if_neg ((Text.trim_beq t hahead).not.mpr (not_not.mpr hblank))] at htrim
    rw [if_pos hblank]
    rcases pair_of_perm hperm with rfl | rfl
    · simp only [Site.applyRules, htrim, hmax, pure_bind]
      split <;> rfl
    · simp only [Site.applyRules, htrim, hmax, pure_bind]
      split <;> rfl
  · rw [if_pos ((Text.trim_beq t hahead).mpr hblank)] at htrim
    rw [if_neg hblank]
    rcases pair_of_perm hperm with rfl | rfl
    · simp only [Site.applyRules, htrim, hmax, pure_bind]
    · simp only [Site.applyRules, htrim, hmax, pure_bind]

/-- Only the empty text is denied. -/
theorem denials_of_node {site : Site} {cuts : Bool} {rules : List (Rule Schema)}
    (hnode : site.node = nodeOf cuts rules)
    {t : String} (hsome : t ≠ "") : site.denials (.string t) = [] := by
  have hkey : "s:" ++ "" ≠ "s:" ++ t :=
    fun heq => hsome (String.append_right_inj "s:" |>.mp heq).symm
  have hdenied : (nodeOf cuts rules).denied = ⟨[("s:" ++ "", .literal (.string ""))], 0⟩ := rfl
  have hliteral : (nodeOf cuts rules).denied.literalAt? (.string t) = none := by
    unfold ValueSet.literalAt?
    rw [hdenied, show Value.setKey (.string t) = "s:" ++ t from rfl]
    dsimp only
    rw [Members.get?, if_neg hkey]
    rfl
  unfold Site.denials ValueSet.has ValueSet.get?
  rw [hnode, hliteral]
  rfl

/-- Where a value may be there and something is left of the text, this is all that comes of it. -/
theorem outcome_of_node {s : Schema} {rules : List (Rule Schema)}
    (hnode : s.node = nodeOf true rules)
    (hperm : rules.Perm [.trim, .max n]) (hcuts : s.Cuts n) (env : Environment)
    (check : Check) {text : String}
    (position : Position) {prefs : Preferences} (hconvert : prefs.convert = true)
    (hpresence : prefs.presence ≠ .forbidden) (hsome : s.cut n text ≠ "") :
    Check.node env check s (.string text) position prefs = pure {
      value := .string (s.cut n text)
      reports := if Text.BlankBehind (s.cut n text).toList then
        [reportAt s position "string.trim" (.string (s.cut n text)) []] else [] } := by
  -- the node patches nothing
  have hprefs : prefs.merged s.node.prefs = prefs := by
    rw [hnode]
    rfl
  unfold Check.node
  rw [hprefs]
  generalize hsite : (⟨env, s, position, prefs, .string text⟩ : Site) = site
  have hsitenode : site.node = nodeOf true rules := hsite ▸ hnode
  have hconverted : site.convert site.input = .ok (.string (s.cut n text)) := by
    rw [← hsite]
    exact hcuts.convert _ rfl hconvert text
  have hempty : site.dropEmpty check (.string (s.cut n text)) = pure (.string (s.cut n text)) := by
    unfold Site.dropEmpty
    rw [hsitenode]
    rfl
  have hthere : site.checkPresence (.string (s.cut n text)) = .ok (.string (s.cut n text)) := by
    rw [Site.checkPresence_inherited (by rw [hsitenode]; rfl) (by rw [hsitenode]; rfl), if_pos]
    exact ⟨rfl, hsite ▸ hpresence⟩
  have hallowed : site.allowed? (.string (s.cut n text)) = none := by
    unfold Site.allowed?
    rw [hsitenode]
    rfl
  have hbase : site.checkBase check (.string (s.cut n text)) =
      pure { value := .string (s.cut n text) } := by
    unfold Site.checkBase
    rw [hsitenode]
    rfl
  have hfinish := @Site.finish_untouched site (by rw [hsitenode]; rfl) (by rw [hsitenode]; rfl)
    (by rw [hsitenode]; rfl)
  have hform : site.node.form = .string { truncate := true } := congrArg Node.form hsitenode
  have hrules :=
    applyRules_pair hform check hperm (s.length_cut n text) (s.not_blankAhead_cut n text)
  unfold Site.run
  rw [hconverted]
  dsimp only
  rw [hempty, pure_bind, hthere]
  dsimp only
  unfold Site.checkPresent
  rw [hallowed, denials_of_node hsitenode hsome]
  dsimp only
  unfold Site.checkContent
  rw [hbase, pure_bind, show site.node.rules = rules by rw [hsitenode]; rfl]
  show (site.applyRules check (.string (s.cut n text)) [] rules >>= fun r =>
    pure (site.finish r.1 r.2 false)) = _
  rw [hrules, pure_bind, hfinish, hsitenode, ← hsite]
  rfl

end

end CutCall

/-- A string schema that trims texts and cuts them to a limit makes a text of every text that is not
too long and does not begin with white space; it ends with white space just if the trimmed text is
longer and the last character within the limit is white space. Of that text the limit is never
reported, and trimming only if it ends with white space. A schema made by calls of the three kinds
is such, the last limit being the one that counts; of such a text, where it is not empty and may be
there, it reports that trimming alone, and just then. -/
theorem trimmed_then_cut :
    (∀ (s : Schema) (n : Number), s.Cuts n → ∀ text : String,
      (∀ site : Site, site.schema = s → site.prefs.convert = true →
        site.convert (.string text) = .ok (.string (s.cut n text))) ∧
      ((s.cut n text).length : ℚ) ≤ n.toRat ∧
      ¬ Text.BlankAhead (s.cut n text).toList ∧
      (Text.BlankBehind (s.cut n text).toList ↔
        n.toCount < (Text.trim (StringForm.inCase s text)).length ∧ ∃ k c, n.toCount = k + 1 ∧
          (Text.trim (StringForm.inCase s text)).toList[k]? = some c ∧ Text.isBlank c = true) ∧
      ∀ env fuel position prefs w w' o, (prefs.merged s.node.prefs).convert = true →
        (Check.within env fuel s (.string text) position prefs).run w = some (o, w') →
        ∀ report ∈ o.reports, report.code ≠ "string.max" ∧
          (report.code = "string.trim" → Text.BlankBehind (s.cut n text).toList)) ∧
    ∀ (calls : List CutCall) (s : Schema), CutCall.applyAll calls Schema.string = .ok s →
      .trim ∈ calls →
      .truncate ∈ calls → ∀ n, CutCall.lastLimit? calls = some n →
      s.Cuts n ∧ ∀ text : String, s.cut n text =
        String.ofList ((Text.trim text).toList.take n.toCount) ∧
        ∀ env fuel position (prefs : Preferences), prefs.convert = true →
          prefs.presence ≠ .forbidden →
          s.cut n text ≠ "" → Check.within env (fuel + 1) s (.string text) position prefs = pure {
            value := .string (s.cut n text)
            reports := if Text.BlankBehind (s.cut n text).toList then
              [reportAt s position "string.trim" (.string (s.cut n text)) []] else [] } := by
  constructor
  · intro s n hcuts text
    have hlimit := limit_of_known hcuts.known
    refine ⟨fun site hschema hconvert => hcuts.convert site hschema hconvert text, ?_,
      s.not_blankAhead_cut n text, s.blankBehind_cut n text, ?_⟩
    · exact le_trans (Nat.cast_le.mpr (s.length_cut n text))
        (Number.toCount_le_toRat hlimit.1 hlimit.2)
    intro env fuel position prefs w w' o hconvert hrun
    exact hcuts.reports hconvert hrun
  · intro calls s happly htrim htruncate n hlimit
    have hcomes := CutCall.comes_of_applyAll happly
    have hcuts := hcomes.cuts htrim htruncate hlimit
    obtain ⟨rules, hnode, hperm⟩ := hcomes.node_eq htrim htruncate hlimit
    refine ⟨hcuts, fun text => ⟨?_, ?_⟩⟩
    · -- no call asks for a case
      have hcase : s.rule? "case" = none := by
        refine List.find?_eq_none.mpr fun rule hrule => ?_
        rcases (CutCall.mem_rules hnode hperm rule).mp (List.mem_reverse.mp hrule) with rfl | rfl
        · exact (by decide : ¬ ("trim" == "case") = true)
        · exact (by decide : ¬ ("max" == "case") = true)
      unfold Schema.cut StringForm.inCase
      rw [hcase]
      rfl
    · intro env fuel position prefs hconvert hpresence hsome
      exact CutCall.outcome_of_node hnode hperm hcuts env _ position hconvert hpresence hsome

/-- A limit of two characters. -/
def two : Number := Number.ofNat 2

/-- Texts trimmed and cut to two characters. -/
def shortText : Schema := { node := CutCall.nodeOf true [.trim, .max two] }

theorem applyAll_shortText :
    CutCall.applyAll [.trim, .truncate, .max two] Schema.string = .ok shortText := rfl

/-- Of two words the first one is left, or the first letter and the blank behind it. -/
theorem trimmed_then_cut_words :
    shortText.Cuts two ∧
    Check.within {} 1 shortText (.string " ab cd") .root {} = pure { value := .string "ab" } ∧
    Check.within {} 1 shortText (.string "a b") .root {} = pure {
      value := .string "a "
      reports := [reportAt shortText .root "string.trim" (.string "a ") []] } := by
  obtain ⟨-, hcalls⟩ := trimmed_then_cut
  have hmade :=
    hcalls [.trim, .truncate, .max two] shortText applyAll_shortText (by decide) (by decide) two rfl
  have hab : shortText.cut two " ab cd" = "ab" := by decide +kernel
  have ha : shortText.cut two "a b" = "a " := by decide +kernel
  have hfirst := (hmade.2 " ab cd").2 {} 0 .root {} rfl (by decide) (by rw [hab]; decide)
  have hsecond := (hmade.2 "a b").2 {} 0 .root {} rfl (by decide) (by rw [ha]; decide)
  rw [hab, if_neg (by decide +kernel)] at hfirst
  rw [ha, if_pos (by decide +kernel)] at hsecond
  exact ⟨hmade.1, hfirst, hsecond⟩

/-- So a converted text need not satisfy the rule that it was trimmed by. -/
theorem trim_reported_of_cut :
    ¬ ∀ (calls : List CutCall) (s : Schema), CutCall.applyAll calls Schema.string = .ok s →
    .trim ∈ calls →
      .truncate ∈ calls → ∀ n, CutCall.lastLimit? calls = some n → ∀ text : String,
      (∀ (site : Site) (t : String), site.schema = s → site.prefs.convert = true →
        site.convert (.string text) = .ok (.string t) →
        ¬ Text.BlankAhead t.toList ∧ ¬ Text.BlankBehind t.toList ∧ (t.length : ℚ) ≤ n.toRat) ∧
      ∀ env fuel position (prefs : Preferences) w w' o, prefs.convert = true →
        (Check.within env fuel s (.string text) position prefs).run w = some (o, w') →
        ∀ report ∈ o.reports, report.code ≠ "string.trim" ∧ report.code ≠ "string.max" := by
  intro hall
  have hclaimed := hall [.trim, .truncate, .max two] shortText applyAll_shortText (by decide)
    (by decide) two rfl "a b"
  have hcuts : shortText.Cuts two :=
    (CutCall.comes_of_applyAll applyAll_shortText).cuts (by decide) (by decide) rfl
  have ha : shortText.cut two "a b" = "a " := by decide +kernel
  have hrun := CutCall.outcome_of_node rfl (List.Perm.refl _) hcuts {} (Check.within {} 0) .root
    (rfl : ({} : Preferences).convert = true) (by decide)
    (by rw [ha]; decide : shortText.cut two "a b" ≠ "")
  rw [ha, if_pos (by decide +kernel)] at hrun
  have hended := congrArg (fun x : Run Outcome => x.run {}) hrun
  have hreport := hclaimed.2 {} 1 .root {} {} {} _ rfl hended _ (List.mem_singleton_self _)
  exact hreport.1 rfl

end Conform
