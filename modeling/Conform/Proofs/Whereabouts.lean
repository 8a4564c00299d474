import Conform.Proofs.Findings
import Conform.Proofs.NodeReports

/-!
# Where reports point

A report made at a position points at it or below, says what the value is called, and names the last
step of its path (`Report.Under`). A check whose inner checks report in that way (`Check.Inside`)
does the same, whatever it does with the values: it passes on what the inner checks report, and its
own reports are made at its position, at the place of a member, or at a key below it.

The predicate is kept by everything reports are put through: they are put one after another
(`AllUnder.append`), and those made deeper are under the path as well (`AllUnder.mono`).
Steps that end in one report are said to reject under a path (`Rejects`); for the rules of
the scalar types that is read off what such a rule can answer at all, so no rule is opened
here (`Rejects.of_answer`).

Here are the rules that look at nothing inside, alternatives, and the phases of objects. What an
object's phases add to the reports is told apart by where it comes from (`ObjectPass.Adds`), so that
it can be said which keys it is about: the property of added reports is a parameter, and the phases
of children, of undeclared keys and of dependencies are each asked what they add. Arrays and the
whole node follow in the next module.
-/

namespace Conform

/-! ### Reports -/

/-- The value of a key written only if it has none: the old one if there is one. -/
theorem Members.get?_insertNew {α : Type} (members : List (String × α))
    (key other : String) (value : α) : Members.get? (Members.insertNew members key value) other =
      if key = other then some ((Members.get? members key).getD value) else
      Members.get? members other := by
  have happend : Members.get? (members ++ [(key, value)]) other =
      (Members.get? members other).or (if key = other then some value else none) := by
    induction members with
    | nil => rfl
    | cons entry rest ih =>
      obtain ⟨k, v⟩ := entry
      rw [List.cons_append, Members.get?_cons, Members.get?_cons, ih]
      split <;> rfl
  unfold Members.insertNew Members.contains
  by_cases hkey : key = other
  · subst hkey
    rw [if_pos rfl]
    cases hget : Members.get? members key with
    | some old => exact hget
    | none =>
      rw [Option.isSome_none, if_neg Bool.false_ne_true, happend, hget, if_pos rfl]
      rfl
  · rw [if_neg hkey]
    split
    · rfl
    · rw [happend, if_neg hkey, Option.or_none]

/-- The report points at the path or below; it says what the value is called, and by what key it
stands there, if it stands in something. -/
structure Report.Under (path : List Segment) (r : Report) : Prop where
  below : path <+: r.path
  label : Members.contains r.context "label" = true
  key : Members.get? r.context "key" = r.path.getLast?.map Segment.toValue

/-- What is below something further down is below. -/
theorem Report.Under.mono {path deeper : List Segment} {r : Report} (h : r.Under deeper)
    (hpath : path <+: deeper) : r.Under path :=
  ⟨hpath.trans h.below, h.label, h.key⟩

/-- What is below one child of a place is below no other child. -/
theorem child_eq_of_below {parent path : List Segment} {child other : Segment}
    (h : parent ++ [child] <+: path) (hother : parent ++ [other] <+: path) : other = child := by
  obtain ⟨deeper, rfl⟩ := h
  rw [List.append_assoc, List.prefix_append_right_inj] at hother
  exact (List.cons_prefix_cons.mp hother).1

/-- What is below a child is not at its parent or above. -/
theorem not_above_of_below {parent path : List Segment} {child : Segment}
    (h : parent ++ [child] <+: path) : ¬path <+: parent := by
  intro habove
  have hlength : (parent ++ [child]).length ≤ parent.length := (h.trans habove).length_le
  rw [List.length_append, List.length_singleton] at hlength
  omega

/-- The context may say anything but by what key the value stands. -/
theorem reportAt_under {path : List Segment} {position : Position} (hpath : path <+: position.path)
    (schema : Schema) (code : String) (value : Value) {context : List (String × Value)}
    (hkey : "key" ∉ Members.keys context) :
    (reportAt schema position code value context).Under path := by
  have hnone : Members.get? context "key" = none :=
    (Members.get?_eq_none_iff context "key").mpr hkey
  have hlabel {members : List (String × Value)} {key : String} {v : Value}
      (h : Members.contains members "label" = true) :
      Members.contains (Members.insertNew members key v) "label" = true := by
    unfold Members.contains at h ⊢
    rw [Members.get?_insertNew]
    split
    · rfl
    · exact h
  -- the label comes first, and what is put in behind takes no member away
  have hfirst (v : Value) :
      Members.contains (Members.insertNew context "label" v) "label" = true := by
    unfold Members.contains
    rw [Members.get?_insertNew, if_pos rfl]
    rfl
  refine ⟨hpath, ?_, ?_⟩
  · unfold reportAt
    dsimp only
    cases position.key? with
    | none =>
      dsimp only
      split
      · exact hlabel (hfirst _)
      · exact hfirst _
    | some segment =>
      dsimp only
      split
      · exact hlabel (hlabel (hfirst _))
      · exact hlabel (hfirst _)
  · -- neither the label nor the value is written under the key
    have hvalue (members : List (String × Value)) :
        Members.get? (if value.isDefined then Members.insertNew members "value" value else
          members) "key" = Members.get? members "key" := by
      split
      · rw [Members.get?_insertNew, if_neg (by decide)]
      · rfl
    have hstart (v : Value) : Members.get? (Members.insertNew context "label" v) "key" = none := by
      rw [Members.get?_insertNew, if_neg (by decide), hnone]
    show Members.get? (reportAt schema position code value context).context "key" =
      position.key?.map Segment.toValue
    unfold reportAt
    dsimp only
    rw [hvalue]
    cases position.key? with
    | none => exact hstart _
    | some segment =>
      dsimp only
      rw [Members.get?_insertNew, if_pos rfl, hstart]
      rfl

/-- A site's own report. -/
theorem Site.report_inside (site : Site) (code : String) (value : Value)
    {context : List (String × Value)}
    (hkey : "key" ∉ Members.keys context) :
    (site.report code value context).Under site.position.path :=
  reportAt_under (List.prefix_refl _) site.schema code value hkey

/-- A report on something one step below. -/
theorem reportAt_nest_under (position : Position) (segment : Segment)
    (parent : Value) (schema : Schema)
    (code : String) (value : Value) {context : List (String × Value)}
    (hkey : "key" ∉ Members.keys context) :
    (reportAt schema (position.nest segment parent) code value context).Under position.path :=
  reportAt_under (List.prefix_append _ _) schema code value hkey

/-- All reports of the list point there. -/
def AllUnder (path : List Segment) (reports : List Report) : Prop := ∀ r ∈ reports, r.Under path

namespace AllUnder

variable {path : List Segment} {reports more : List Report}

/-- No reports are under any path. -/
theorem nil : AllUnder path [] := List.forall_mem_nil _

/-- One report under a path is all of them. -/
theorem one {r : Report} (h : r.Under path) : AllUnder path [r] := List.forall_mem_singleton.mpr h

/-- Reports under a path, and more of them, are under it together. -/
theorem append (h : AllUnder path reports) (hmore : AllUnder path more) :
    AllUnder path (reports ++ more) :=
  List.forall_mem_append.mpr ⟨h, hmore⟩

/-- What is under a deeper path is under the path. -/
theorem mono {deeper : List Segment} (h : AllUnder deeper reports) (hpath : path <+: deeper) :
    AllUnder path reports :=
  fun r hr => (h r hr).mono hpath

end AllUnder

/-! ### Single rules -/

/-- A rejection is such a report. -/
structure Rejects (path : List Segment) {α : Type} (r : Except Report α) : Prop where
  under : ∀ report, r = .error report → report.Under path

namespace Rejects

variable {path : List Segment} {α β : Type}

/-- A step without a report rejects nothing. -/
theorem ok (a : α) : Rejects path (.ok a : Except Report α) :=
  ⟨fun _ h => absurd h (by simp)⟩

/-- A step may end in a report under the path. -/
theorem error {report : Report} (h : report.Under path) :
    Rejects path (.error report : Except Report α) := by
  refine ⟨fun other hother => ?_⟩
  rw [← Except.error.inj hother]
  exact h

/-- Steps that reject under the path in turn reject under it together. -/
theorem bind {r : Except Report α} {f : α → Except Report β} (h : Rejects path r)
    (hf : ∀ a, Rejects path (f a)) : Rejects path (r >>= f) := by
  cases r with
  | ok a => exact hf a
  | error report => exact error (h.under report rfl)

/-- The first item that is rejected is reported. -/
theorem mapM {f : α → Except Report β} (hf : ∀ a, Rejects path (f a)) (items : List α) :
    Rejects path (items.mapM f) := by
  induction items with
  | nil => exact ok []
  | cons item rest ih =>
    rw [List.mapM_cons]
    exact (hf item).bind fun first => ih.bind fun others => ok (first :: others)

variable (site : Site) (value : Value)

/-- A rejection by the site's own report. -/
theorem own (code : String) {context : List (String × Value)}
    (hkey : "key" ∉ Members.keys context) :
    Rejects site.position.path (.error (site.report code value context) : Except Report α) :=
  error (site.report_inside code value hkey)

/-- The rules that look at the value alone report at the position. -/
theorem of_answer {value : Value} {codes : String → Prop} {anew : Prop} {r : Except Report Value}
    (h : Answer site value codes anew r) : Rejects site.position.path r := by
  cases h with
  | same => exact .ok _
  | anew other _ => exact .ok _
  | report _ hkey => exact .own site value _ hkey

/-- A requirement on a size is reported at the position. -/
theorem requireSize (code : String) (bound : Nat) (passes : Bool) :
    Rejects site.position.path (site.requireSize code value bound passes) :=
  have answer : Answer site value (fun _ => True) False
    (site.requireSize code value bound passes) :=
    .requireSize trivial bound passes
  .of_answer site answer

/-- A repeated member is reported at its own place. -/
theorem uniqueRule (given : Given) :
    Rejects site.position.path (ArrayForm.uniqueRule site given value) := by
  unfold ArrayForm.uniqueRule
  split
  · dsimp only
    split
    · exact .ok _
    · refine .error (reportAt_nest_under _ _ _ _ _ _ ?_)
      cases given.text? "comparator" with
      | none => simp [Members.keys]
      | some path => simp [Members.keys]
  · exact .ok _

/-- A function of the registry is reported on at the position. -/
theorem customRule (given : Given) : Rejects site.position.path (site.customRule given value) := by
  unfold Site.customRule
  split
  · exact .ok _
  · split
    · exact .ok _
    · split
      · exact .ok _
      · exact .own _ _ _ (by simp [Members.keys])

/-- An argument that cannot be resolved is reported at the position. -/
theorem resolveArgument (p : Parameter) (arg : Argument Schema) :
    Rejects site.position.path (site.resolveArgument value p arg) := by
  unfold Site.resolveArgument
  split
  · exact .ok _
  · split
    · exact .ok _
    · dsimp only
      split
      · exact .ok _
      · exact .own _ _ _ (by simp [Members.keys])
  · exact .ok _

/-- Of several arguments the first that cannot be resolved is reported. -/
theorem resolveArguments (parameters : List Parameter) (args : List (Argument Schema)) :
    Rejects site.position.path (site.resolveArguments value parameters args) := by
  unfold Site.resolveArguments
  refine bind (mapM (fun pair => ?_) _) fun _ => ok _
  obtain ⟨p, arg⟩ := pair
  exact bind (resolveArgument site value p arg) fun _ => ok _

end Rejects

/-! ### Checks inside -/

/-- Nothing is asked of the schemas that a workshop keeps. -/
theorem Leaves.anything {env : Environment} {α : Type} (x : Run α) :
    Leaves env (fun _ => True) (fun _ => True) x :=
  fun _ _ _ _ _ => ⟨trivial, fun _ _ _ _ _ _ => trivial⟩

/-- What holds of a result holds of what the run comes to. -/
theorem Leaves.out {env : Environment} {α : Type} {Q : α → Prop} {x : Run α}
    (h : Leaves env (fun _ => True) Q x)
    {w w₁ : Workshop} {a : α} (hrun : x.run w = some (a, w₁)) : Q a :=
  (h w a w₁ (fun _ _ _ _ _ _ => trivial) hrun).1

/-- All that is reported points at the position of the check or below, whatever is
checked by whatever schema. -/
def Check.Inside (env : Environment) (check : Check) : Prop :=
  ∀ s value (position : Position) prefs,
    Leaves env (fun _ => True) (fun o => AllUnder position.path o.reports)
    (check s value position prefs)

/-- One step down, what is reported is still inside. -/
theorem Check.Inside.nest {env : Environment} {check : Check} (h : check.Inside env)
    (s : Schema) (value : Value)
    (position : Position) (segment : Segment) (parent : Value) (prefs : Preferences) :
    Leaves env (fun _ => True) (fun o => AllUnder position.path o.reports)
      (check s value (position.nest segment parent) prefs) :=
  (h s value (position.nest segment parent) prefs).mono fun _ ho => ho.mono (List.prefix_append _ _)

/-! ### Alternatives -/

namespace AlternativesForm

variable {check : Check} {site : Site}

/-- When nothing matches, the failures are passed on, or the site reports for all of them. -/
theorem unmatched_under (value : Value) {failures : List (List Report)}
    (h : ∀ reports ∈ failures, AllUnder site.position.path reports) :
    AllUnder site.position.path (unmatched site value failures) := by
  have hflat : AllUnder site.position.path failures.flatten := by
    intro r hr
    obtain ⟨reports, hreports, hr⟩ := List.mem_flatten.mp hr
    exact h reports hreports r hr
  unfold unmatched
  split
  · exact .one (site.report_inside _ _ (by simp [Members.keys]))
  · exact h _ (List.mem_singleton_self _)
  · unfold joined
    split
    · dsimp only
      split
      · exact .one (site.report_inside _ _ (by simp [Members.keys]))
      next report honly =>
        -- the one failure that is about more than the type
        have hmem : report ∈ failures.flatten.filter fun r => !isTypeMismatch site r := by
          rw [honly]
          exact List.mem_singleton_self _
        exact .one (hflat report (List.mem_filter.mp hmem).1)
      · exact hflat
    · exact hflat

/-- What the entries reported is under the position, and so is what is made of their failures. -/
theorem tryEntries_inside (h : check.Inside site.env)
    (form : AlternativesForm Schema) (value : Value)
    {failures : List (List Report)}
    (hfailures : ∀ reports ∈ failures, AllUnder site.position.path reports)
    (entries : List (Match Schema)) :
    Leaves site.env (fun _ => True) (fun o => AllUnder site.position.path o.reports)
      (form.tryEntries check site value failures entries) := by
  induction entries generalizing failures with
  | nil =>
    unfold tryEntries
    cases form.base with
    | none => exact .pure (unmatched_under value hfailures)
    | some base => exact h base value site.position site.prefs
  | cons entry rest ih =>
    unfold tryEntries
    cases entry with
    | attempt schema =>
      refine (h schema value site.position site.prefs).bind fun o ho => ?_
      split
      · exact .pure ho
      · exact ih (List.forall_mem_append.mpr ⟨hfailures, List.forall_mem_singleton.mpr ho⟩)
    | conditional condition cases otherwise =>
      refine (Leaves.anything _).bind fun picked _ => ?_
      cases picked with
      | none => exact ih hfailures
      | some branch => exact h branch value site.position site.prefs

end AlternativesForm

/-! ### Objects -/

namespace ObjectPass

/-- The second pass has the reports of the first one and more, all of them such. -/
def Adds (T : Report → Prop) (p q : ObjectPass) : Prop :=
  ∃ new, q.reports = p.reports ++ new ∧ ∀ r ∈ new, T r

variable {T : Report → Prop} {p q s : ObjectPass}

/-- No step adds nothing. -/
theorem Adds.refl (p : ObjectPass) : p.Adds T p :=
  ⟨[], (List.append_nil _).symm, List.forall_mem_nil _⟩

/-- A step that only changes the working copy adds nothing. -/
theorem Adds.of_finds (h : p.Finds q) : p.Adds T q :=
  ⟨[], by rw [h.1, List.append_nil], List.forall_mem_nil _⟩

/-- What two steps add, they add in turn. -/
theorem Adds.trans (h : p.Adds T q) (hnext : q.Adds T s) : p.Adds T s := by
  obtain ⟨new, hq, hnew⟩ := h
  obtain ⟨more, hs, hmore⟩ := hnext
  exact ⟨new ++ more, by rw [hs, hq, List.append_assoc], List.forall_mem_append.mpr ⟨hnew, hmore⟩⟩

/-- If all reports so far are such, and what is added is, all are. -/
theorem Adds.all (h : p.Adds T q) (hp : ∀ r ∈ p.reports, T r) : ∀ r ∈ q.reports, T r := by
  obtain ⟨new, hq, hnew⟩ := h
  rw [hq]
  exact List.forall_mem_append.mpr ⟨hp, hnew⟩

/-- A failure adds its reports. -/
theorem adds_fail (p : ObjectPass) (site : Site) {reports : List Report} (h : ∀ r ∈ reports, T r) :
    p.Adds T (p.fail site reports) := by
  unfold fail
  split
  · exact .refl p
  · exact ⟨reports, rfl, h⟩

/-- Several failures add some of their reports. -/
theorem adds_failEach (p : ObjectPass) (site : Site) {reports : List Report}
    (h : ∀ r ∈ reports, T r) : p.Adds T (p.failEach site reports) := by
  unfold failEach
  induction reports generalizing p with
  | nil => exact .refl p
  | cons report rest ih =>
    obtain ⟨hreport, hrest⟩ := List.forall_mem_cons.mp h
    unfold forEach
    split
    · exact .refl p
    · exact (adds_fail p site (List.forall_mem_singleton.mpr hreport)).trans (ih _ hrest)

end ObjectPass

namespace ObjectForm

variable {site : Site} {T : Report → Prop} {p : ObjectPass}

theorem takeChild_adds (key : String) {o : Outcome} (ho : ∀ r ∈ o.reports, T r) :
    p.Adds T (takeChild site p key o) := by
  unfold takeChild
  split
  · exact ObjectPass.adds_fail p site ho
  · exact .of_finds (finds_keepChild p key o)

theorem takeMatched_adds (key : String) {o : Outcome} (ho : ∀ r ∈ o.reports, T r) :
    p.Adds T (takeMatched site p key o) := by
  unfold takeMatched
  split
  · exact ObjectPass.adds_fail p site ho
  · exact .of_finds (finds_keepMatched p key o)

/-- At two sites a dependency is reported on in the same way. -/
theorem dependencyReports_relates {site' : Site} {R : Report → Report → Prop}
    {value : Value} (d : Dependency) (hown : ∀ code context, "key" ∉ Members.keys context →
      R (site.report code value context) (site'.report code value context)) :
    List.Forall₂ R (dependencyReports site value d) (dependencyReports site' value d) := by
  -- a report of the object, or one for each offending peer
  have hone {code : String} {context : List (String × Value)}
      (hkey : "key" ∉ Members.keys context) :
      List.Forall₂ R [site.report code value context] [site'.report code value context] :=
    .cons (hown code context hkey) .nil
  have heach (code main : String) (offending : List String) : List.Forall₂ R
      (offending.map fun peer =>
        site.report code value [("main", .string main), ("peer", .string peer)])
      (offending.map fun peer =>
        site'.report code value [("main", .string main), ("peer", .string peer)]) := by
    rw [List.forall₂_map_left_iff, List.forall₂_map_right_iff, List.forall₂_same]
    exact fun peer _ => hown _ _ (by simp [Members.keys])
  unfold dependencyReports
  dsimp only
  cases d.relation with
  | «with» =>
    dsimp only
    split
    · split
      · exact heach _ _ _
      · exact .nil
    · exact .nil
  | without =>
    dsimp only
    split
    · split
      · exact heach _ _ _
      · exact .nil
    · exact .nil
  | xor =>
    dsimp only
    split
    · exact hone (by simp [Members.keys])
    · split
      · exact hone (by simp [Members.keys])
      · exact .nil
  | oxor =>
    dsimp only
    split
    · exact hone (by simp [Members.keys])
    · exact .nil
  | or =>
    dsimp only
    split
    · exact hone (by simp [Members.keys])
    · exact .nil
  | and =>
    dsimp only
    split
    · exact hone (by simp [Members.keys])
    · exact .nil
  | nand =>
    dsimp only
    split
    · split
      · exact hone (by simp [Members.keys])
      · exact .nil
    · exact .nil

section

variable (hown : ∀ code value context, "key" ∉ Members.keys context →
  T (site.report code value context))

include hown

theorem applyRenames_adds (taken : List String) (p : ObjectPass) (renames : List Rename) :
    p.Adds T (applyRenames site taken p renames) := by
  induction renames generalizing taken p with
  | nil => exact .refl p
  | cons rename rest ih =>
    unfold applyRenames
    split
    · exact .refl p
    · split
      · exact ih taken p
      · split
        · exact ih taken p
        · split
          next code _ =>
            have hconflict : T (site.report code p.value
                [("from", Value.string rename.source), ("to", .string rename.target)]) :=
              hown _ _ _ (by simp [Members.keys])
            exact (ObjectPass.adds_fail p site (List.forall_mem_singleton.mpr hconflict)).trans
              (ih taken _)
          next => exact (ObjectPass.Adds.of_finds (finds_move rename _ p)).trans (ih _ _)

/-- A dependency is about the object as a whole. -/
theorem dependencyReports_own (value : Value) (d : Dependency) :
    ∀ r ∈ dependencyReports site value d, T r := by
  have hrelates : List.Forall₂ (fun _ r => T r) (dependencyReports site value d)
      (dependencyReports site value d) :=
    dependencyReports_relates d fun code context hkey => hown code value context hkey
  exact List.forall₂_same.mp hrelates

/-- Dependencies add reports on peers and on keys. -/
theorem checkDependencies_adds (form : ObjectForm Schema) (p : ObjectPass) :
    p.Adds T (form.checkDependencies site p) :=
  ObjectPass.forEach_keeps (Q := p.Adds T)
    (fun q d _ hq =>
      hq.trans (ObjectPass.adds_failEach q site (dependencyReports_own hown q.value d)))
    (.refl p)

end

/-! Undeclared keys are reported on by the patterns about them, or as unknown. -/

/-- Keys that nothing is about add a report each, or none. -/
theorem settleUnknown_adds (form : ObjectForm Schema) (p : ObjectPass) {keys : List String}
    (hunknown : ∀ key ∈ keys, ∀ p, T (unknownReport site p key)) :
    p.Adds T (form.settleUnknown site p keys) := by
  unfold settleUnknown
  split
  · exact .refl p
  · split
    · exact .of_finds (ObjectPass.finds_eraseAll p keys)
    · split
      · exact .refl p
      · refine ObjectPass.adds_failEach p site fun r hr => ?_
        obtain ⟨key, hkey, rfl⟩ := List.mem_map.mp hr
        exact hunknown key hkey p

variable {check : Check}

/-- A pattern that a key matches adds what the check of the member reports. -/
theorem checkPatterns_adds {key : String}
    (hchecked : ∀ t value parent, Leaves site.env (fun _ => True) (fun o => ∀ r ∈ o.reports, T r)
      (check t value (site.position.nest (.key key) parent) site.prefs)) (p : ObjectPass)
    (patterns : List (KeyPattern Schema)) :
    Leaves site.env (fun _ => True) (fun next => ∀ q ∈ next, p.Adds T q)
      (checkPatterns check site p key patterns) := by
  induction patterns with
  | nil => exact .pure fun _ hnext => absurd hnext (by simp)
  | cons pattern rest ih =>
    unfold checkPatterns
    refine (Leaves.anything _).bind fun about _ => ?_
    split
    · refine (hchecked pattern.schema (p.member key) p.value).bind fun o ho => .pure fun q hq => ?_
      rw [← Option.some.inj hq]
      exact takeMatched_adds key ho
    · exact ih

/-- The keys left are among those looked at. -/
theorem checkUndeclared_adds (form : ObjectForm Schema) {keys : List String}
    (hchecked : ∀ key ∈ keys, ∀ t value parent, Leaves site.env (fun _ => True)
      (fun o => ∀ r ∈ o.reports, T r)
        (check t value (site.position.nest (.key key) parent) site.prefs))
    (p : ObjectPass) (left : List String) :
    Leaves site.env (fun _ => True) (fun r => p.Adds T r.1 ∧ ∀ key ∈ r.2, key ∈ left ∨ key ∈ keys)
      (form.checkUndeclared check site p left keys) := by
  induction keys generalizing p left with
  | nil => exact .pure ⟨.refl p, fun _ hkey => .inl hkey⟩
  | cons key rest ih =>
    have ih := ih fun key hkey => hchecked key (List.mem_cons_of_mem _ hkey)
    unfold checkUndeclared
    split
    · exact .pure ⟨.refl p, fun _ hkey => .inl hkey⟩
    · refine (checkPatterns_adds (hchecked key (List.mem_cons_self ..)) p form.patterns).bind
        fun next hnext => ?_
      cases next with
      | none =>
        -- a key that no pattern is about is left
        refine (ih p (left ++ [key])).mono fun r hr => ⟨hr.1, fun other hother => ?_⟩
        rcases hr.2 other hother with hleft | hrest
        · rcases List.mem_append.mp hleft with hold | hnew
          · exact .inl hold
          · exact .inr (List.mem_cons.mpr (.inl (List.mem_singleton.mp hnew)))
        · exact .inr (List.mem_cons_of_mem _ hrest)
      | some q =>
        refine (ih q left).mono fun r hr => ⟨(hnext q rfl).trans hr.1, fun other hother => ?_⟩
        exact (hr.2 other hother).imp_right (List.mem_cons_of_mem _)

/-- Undeclared keys add what their patterns report, and what settling the rest reports. -/
theorem checkUnknown_adds (form : ObjectForm Schema) {keys : List String}
    (hchecked : ∀ key ∈ keys, ∀ t value parent, Leaves site.env (fun _ => True)
      (fun o => ∀ r ∈ o.reports, T r)
        (check t value (site.position.nest (.key key) parent) site.prefs))
    (hunknown : ∀ key ∈ keys, ∀ p, T (unknownReport site p key)) (p : ObjectPass) :
    Leaves site.env (fun _ => True) (p.Adds T) (form.checkUnknown check site p keys) := by
  unfold checkUnknown
  refine (checkUndeclared_adds form hchecked p []).bind fun r hr => .pure ?_
  split
  · exact hr.1
  · refine hr.1.trans (settleUnknown_adds form r.1 fun key hkey => ?_)
    exact hunknown key ((hr.2 key hkey).resolve_left List.not_mem_nil)

/-- An undeclared key is reported at its own path. -/
theorem unknownReport_under (site : Site) (p : ObjectPass) (key : String) :
    (unknownReport site p key).Under (site.position.path ++ [.key key]) := by
  unfold unknownReport
  refine reportAt_under ?_ site.schema _ _ ?_
  · exact List.prefix_refl _
  · simp [Members.keys]

/-! ### A whole object -/

/-- What an object reports is under its position, phase by phase. -/
theorem base_inside (h : check.Inside site.env) (form : ObjectForm Schema) (value : Value) :
    Leaves site.env (fun _ => True) (fun o => AllUnder site.position.path o.reports)
      (form.base check site value) := by
  have hown (code : String) (value : Value) (context : List (String × Value))
      (hkey : "key" ∉ Members.keys context) :
      (site.report code value context).Under site.position.path :=
    site.report_inside code value hkey
  -- the phases of an object, each reporting at the object or below it
  have hmembers (members : List (String × Value)) : Leaves site.env (fun _ => True)
      (fun p => AllUnder site.position.path p.reports) (form.checkMembers check site members) := by
    have hrenamed : AllUnder site.position.path
        (applyRenames site [] { members } form.renames).reports :=
      (applyRenames_adds hown [] _ _).all (List.forall_mem_nil _)
    have hchildren (p : ObjectPass) (hp : AllUnder site.position.path p.reports) : Leaves site.env
        (fun _ => True) (fun q => AllUnder site.position.path q.reports)
        (form.checkChildren check site p) := by
      unfold checkChildren
      refine Leaves.bind (Q := fun q => AllUnder site.position.path q.reports)
        (ObjectPass.forEach_leaves (fun q _ hq child _ => ?_) hp) fun q hq => .pure ?_
      · refine (h.nest child.2 (q.member child.1) site.position
          (.key child.1) q.value site.prefs).bind fun o ho => .pure ?_
        exact (takeChild_adds child.1 ho).all hq
      · split
        · exact hq
        · exact (ObjectPass.Adds.of_finds (ObjectPass.finds_eraseAll q _)).all hq
    have hunknown (keys : List String) (p : ObjectPass)
        (hp : AllUnder site.position.path p.reports) :
        Leaves site.env (fun _ => True) (fun q => AllUnder site.position.path q.reports)
          (form.checkUnknown check site p keys) := by
      refine (checkUnknown_adds form (T :=
        Report.Under site.position.path) (fun key _ t value parent => ?_)
        (fun key _ p => ?_) p).mono fun q hq => hq.all hp
      · exact h.nest t value site.position (.key key) parent site.prefs
      · exact (unknownReport_under site p key).mono (List.prefix_append _ _)
    unfold checkMembers
    dsimp only
    split
    · exact .pure hrenamed
    · refine (hchildren _ hrenamed).bind fun p hp => ?_
      split
      · exact .pure hp
      · refine (hunknown _ p hp).bind fun p hp => ?_
        split
        · exact .pure hp
        · exact .pure ((checkDependencies_adds hown form p).all hp)
  have hbase (value : Value) : AllUnder site.position.path [site.report "object.base" value] :=
    .one (hown _ _ _ List.not_mem_nil)
  unfold base
  cases value with
  | object members =>
    dsimp only
    split
    · exact .pure .nil
    · exact (hmembers members).bind fun p hp => .pure hp
  | _ => exact .pure (hbase _)

end ObjectForm

end Conform
