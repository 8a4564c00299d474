import Conform.Proofs.Findings
import Conform.Proofs.MergedParts
import Conform.Proofs.Phase
import Conform.Proofs.SetKeys

/-!
# Children in another order

The members of an object are checked over one working copy, one after another. A child writes under
its own key alone, so once it is known what comes of each child, two of them may change places
(`ObjectForm.takeChild_comm`), and any order of them is as good as another
(`ObjectForm.takeAll_perm`). The working copies then agree but for the order of members, and what is
reported agrees but for the order of the reports (`ObjectPass.Alike`).

Members are alike if each key leads to the same on both sides and keys are their own
(`Members.Alike`); values are the same but for the order if their members are alike at every depth
that was written (`Value.Reorders`). Reports are compared by their places, that is by code and path,
as a multiset. A working copy is a list of members, a list of reports and a list of keys to be
stripped, so being alike is three such comparisons and that both go on.

The permutation is dealt with by its steps: two neighbours that change places (`takeChild_comm`,
where the two children have different keys), and what comes behind them (`takeAll_alike`).

All of this is about checks that go on: where the first failure ends a check, it is not the same
failure in another order. So a child is asked to be harmless: it passes, or reports are collected.
-/

namespace Conform

/-! ### Members and values -/

/-- The same entries, each key once, perhaps in another order. -/
structure Members.Alike {α : Type} (a b : List (String × α)) : Prop where
  left : Members.Distinct a
  right : Members.Distinct b
  get? : ∀ key, Members.get? b key = Members.get? a key

namespace Members.Alike

variable {α : Type} {a b c : List (String × α)}

/-- Members with keys of their own are like themselves. -/
theorem refl (h : Members.Distinct a) : Members.Alike a a := ⟨h, h, fun _ => rfl⟩

/-- Likeness of members goes on. -/
theorem trans (h : Members.Alike a b) (h' : Members.Alike b c) : Members.Alike a c :=
  ⟨h.left, h'.right, fun key => (h'.get? key).trans (h.get? key)⟩

/-- Members that are alike are permutations of each other. -/
theorem perm (h : Members.Alike a b) : a.Perm b :=
  Members.perm_of_get?_eq h.left h.right fun key => (h.get? key).symm

end Members.Alike

namespace Value

/-- The same value, or objects with the same members in another order. -/
inductive Reorders : Value → Value → Prop
  | refl (v : Value) : Reorders v v
  | members {a b : List (String × Value)} : Members.Alike a b → Reorders (.object a) (.object b)

namespace Reorders

variable {v w : Value}

/-- Whether a value is there does not depend on the order of its members. -/
theorem isDefined (h : v.Reorders w) : w.isDefined = v.isDefined := by
  cases h <;> rfl

/-- The size of an object does not depend on the order of its members. -/
theorem size (h : v.Reorders w) : ObjectForm.size w = ObjectForm.size v := by
  cases h with
  | refl => rfl
  | members h => exact (h.perm.filter _).length_eq.symm

/-- A first step leads to the same. -/
theorem reach (h : v.Reorders w) {path : List String} (hpath : path ≠ []) :
    w.reach path = v.reach path := by
  cases h with
  | refl => rfl
  | @members a b h =>
    obtain ⟨key, rest, rfl⟩ := List.exists_cons_of_ne_nil hpath
    have hget : (Value.object b).get? key = (Value.object a).get? key := h.get? key
    unfold Value.reach
    rw [hget]

/-- What is at the end of any path differs in the order of members at most. -/
theorem reach_reorders (h : v.Reorders w) (path : List String) :
    (v.reach path).Reorders (w.reach path) := by
  by_cases hpath : path = []
  · rw [hpath]
    exact h
  · rw [h.reach hpath]
    exact .refl _

/-- A number has no members. -/
theorem number? (h : v.Reorders w) : w.number? = v.number? := by
  cases h <;> rfl

/-- A text has no members. -/
theorem string? (h : v.Reorders w) : w.string? = v.string? := by
  cases h <;> rfl

/-- No argument may be an object, whatever the order of its members. -/
theorem rejection? (h : v.Reorders w) (kind : ArgumentKind) :
    kind.rejection? w = kind.rejection? v := by
  cases h with
  | refl => rfl
  | members => cases kind <;> rfl

/-- The order of members does not matter to what a value is compared with. -/
theorem same_right (h : v.Reorders w) (x : Value) : x.same w = x.same v := by
  cases h with
  | refl => rfl
  | @members a b h =>
    cases x with
    | object xs =>
      have hmembers : sameMembers xs b = sameMembers xs a := by
        induction xs with
        | nil => rfl
        | cons entry rest ih => rw [sameMembers, sameMembers, h.get?, ih]
      rw [Value.same, Value.same, hmembers, h.perm.length_eq]
    | _ => rfl

/-- Whether a peer is there does not depend on the order of its members. -/
theorem isPresent (h : v.Reorders w) : ObjectForm.isPresent w = ObjectForm.isPresent v := by
  funext path
  unfold ObjectForm.isPresent
  by_cases hnone : Text.splitOn '.' path = []
  · rw [hnone]
    exact h.isDefined
  · rw [h.reach hnone]

/-- The order of members does not matter for being the same, provided that every object
names each member once. -/
theorem same (h : v.Reorders w) (hnames : v.hasDistinctNames = true) : v.same w = true := by
  induction v using inner_induction generalizing w with
  | h v ih =>
    obtain ⟨honce, hinner⟩ := everywhere_iff.mp hnames
    have hself (child : Value) (hchild : child ∈ v.inner) : child.same child = true :=
      ih child hchild (.refl child) (hinner child hchild)
    -- every member of one object stands in the other under its key, and is the same as itself
    have hobject {a b : List (String × Value)} (hv : v = .object a) (halike : Members.Alike a b) :
        (Value.object a).same (.object b) = true := by
      rw [Value.same, halike.perm.length_eq, beq_self_eq_true, Bool.true_and]
      refine sameMembers_of_get? fun entry hentry => ⟨entry.2, ?_, ?_⟩
      · exact (halike.get? entry.1).trans (halike.left.get?_of_mem hentry)
      · exact hself entry.2 (hv ▸ List.mem_map_of_mem hentry)
    cases h with
    | members halike => exact hobject rfl halike
    | refl =>
      cases v with
      | object a =>
        have honce : (Members.keys a).Nodup := of_decide_eq_true honce
        exact hobject rfl (.refl honce)
      | array items =>
        exact sameItems_of_forall₂ (List.forall₂_same.mpr fun item hitem => hself item hitem)
      | number n => exact Number.same_of_key rfl
      | bool b => cases b <;> rfl
      | undefined => rfl
      | null => rfl
      | string s => exact beq_self_eq_true s
      | date t => exact beq_self_eq_true t.millis
      | binary bytes => exact beq_self_eq_true bytes

end Reorders

end Value

/-! ### Working copies -/

namespace ObjectPass

/-- Two checks that go on and have found the same, but for the order of members and of reports. -/
structure Alike (p q : ObjectPass) : Prop where
  members : Members.Alike p.members q.members
  reports : (q.reports.map Report.place).Perm (p.reports.map Report.place)
  stripped : ∀ key, key ∈ q.stripped ↔ key ∈ p.stripped
  goes : p.stopped = false
  goes' : q.stopped = false

namespace Alike

variable {p q r : ObjectPass}

/-- A working copy that goes on is like itself. -/
theorem refl (hmembers : Members.Distinct p.members) (hgoes : p.stopped = false) : p.Alike p :=
  ⟨.refl hmembers, .refl _, fun _ => Iff.rfl, hgoes, hgoes⟩

/-- Likeness of working copies goes on. -/
theorem trans (h : p.Alike q) (h' : q.Alike r) : p.Alike r :=
  ⟨h.members.trans h'.members, h'.reports.trans h.reports,
    fun key => (h'.stripped key).trans (h.stripped key), h.goes, h'.goes'⟩

/-- What working copies that are alike hold is the same but for the order. -/
theorem value (h : p.Alike q) : p.value.Reorders q.value := .members h.members

/-- Working copies that are alike hold the same under each key. -/
theorem member (h : p.Alike q) (key : String) : q.member key = p.member key := by
  unfold ObjectPass.member
  rw [h.members.get?]

/-- Reports at the same places on both sides, unless they end the check. -/
theorem fail (h : p.Alike q) {site : Site} {reports reports' : List Report}
    (hplaces : reports'.map Report.place = reports.map Report.place)
    (hgoes : (p.fail site reports).stopped = false) :
    (p.fail site reports).Alike (q.fail site reports') := by
  have hempty : reports'.isEmpty = reports.isEmpty := by
    rw [← List.isEmpty_map (f := Report.place), hplaces, List.isEmpty_map]
  unfold ObjectPass.fail at hgoes ⊢
  rw [hempty]
  cases hnone : reports.isEmpty with
  | true => exact h
  | false =>
    rw [hnone] at hgoes
    refine ⟨h.members, ?_, h.stripped, hgoes, hgoes⟩
    show ((q.reports ++ reports').map _).Perm ((p.reports ++ reports).map _)
    rw [List.map_append, List.map_append, hplaces]
    exact h.reports.append_right _

/-- Failures at the same places keep working copies alike. -/
theorem failEach (h : p.Alike q) {site : Site} {reports reports' : List Report}
    (hplaces : reports'.map Report.place = reports.map Report.place)
    (hgoes : (p.failEach site reports).stopped = false) :
    (p.failEach site reports).Alike (q.failEach site reports') := by
  induction reports generalizing p q reports' with
  | nil =>
    rw [List.map_nil, List.map_eq_nil_iff] at hplaces
    rw [hplaces]
    exact h
  | cons report rest ih =>
    obtain ⟨report', rest', rfl, hplace, hrest⟩ := List.map_eq_cons_iff.mp hplaces
    have hone : [report'].map Report.place = [report].map Report.place :=
      congrArg (List.cons · []) hplace
    have hstep {p : ObjectPass} (hp : p.stopped = false) (report : Report) (rest : List Report) :
        p.failEach site (report :: rest) = (p.fail site [report]).failEach site rest := by
      unfold ObjectPass.failEach
      rw [forEach, if_neg (by simp [hp])]
      rfl
    rw [hstep h.goes] at hgoes ⊢
    rw [hstep h.goes']
    cases hended : (p.fail site [report]).stopped with
    | true =>
      -- an ended check stays ended
      unfold ObjectPass.failEach at hgoes
      rw [forEach_stopped hended] at hgoes
      exact absurd (hended.symm.trans hgoes) (by simp)
    | false => exact ih (h.fail hone hended) hrest hgoes

end Alike

/-- Keys that are taken away are not found, and all others as before. -/
theorem get?_eraseAll (keys : List String) (p : ObjectPass) (key : String) :
    Members.get? (p.eraseAll keys).members key = if key ∈ keys then none else
    Members.get? p.members key := by
  induction keys generalizing p with
  | nil => rfl
  | cons first rest ih =>
    show Members.get? ((p.erase first).eraseAll rest).members key = _
    rw [ih, show (p.erase first).members = Members.erase p.members first from
      rfl, Members.get?_erase]
    by_cases hfirst : first = key
    · subst hfirst
      simp
    · rw [if_neg hfirst]
      simp only [List.mem_cons, Ne.symm hfirst, false_or]

/-- Taking keys away leaves keys of their own. -/
theorem distinct_eraseAll {p : ObjectPass} (h : Members.Distinct p.members) (keys : List String) :
    Members.Distinct (p.eraseAll keys).members := by
  induction keys generalizing p with
  | nil => exact h
  | cons first rest ih => exact ih (p := p.erase first) (h.erase first)

theorem stripped_eraseAll (keys : List String) (p : ObjectPass) :
    (p.eraseAll keys).stripped = p.stripped := by
  induction keys generalizing p with
  | nil => rfl
  | cons first rest ih => exact ih (p.erase first)

/-- Taking away the same keys, in any order, keeps working copies alike. -/
theorem Alike.eraseAll {p q : ObjectPass} (h : p.Alike q) {keys keys' : List String}
    (hkeys : ∀ key, key ∈ keys' ↔ key ∈ keys) : (p.eraseAll keys).Alike (q.eraseAll keys') := by
  obtain ⟨hreports, hstopped⟩ := finds_eraseAll p keys
  obtain ⟨hreports', hstopped'⟩ := finds_eraseAll q keys'
  refine ⟨⟨distinct_eraseAll h.members.left keys, distinct_eraseAll h.members.right keys',
    fun key => ?_⟩, ?_, ?_, hstopped.trans h.goes, hstopped'.trans h.goes'⟩
  · rw [get?_eraseAll, get?_eraseAll, h.members.get?]
    by_cases hkey : key ∈ keys
    · rw [if_pos hkey, if_pos ((hkeys key).mpr hkey)]
    · rw [if_neg hkey, if_neg fun hin => hkey ((hkeys key).mp hin)]
  · rw [hreports, hreports']
    exact h.reports
  · rw [stripped_eraseAll, stripped_eraseAll]
    exact h.stripped

end ObjectPass

/-! ### Children one after another -/

namespace ObjectForm

/-- What a child leaves under its key, given what stood there. -/
def slot (o : Outcome) (old : Option Value) : Option Value :=
  if !o.isOk then old
  else if o.value.isDefined then some o.value
  else if o.strip then old.map fun _ => o.value
  else if (old.getD .undefined).isDefined then none
  else old

/-- A child writes under its own key alone. -/
theorem get?_takeChild (site : Site) (p : ObjectPass) (key other : String) (o : Outcome) :
    Members.get? (takeChild site p key o).members other =
      if key = other then slot o (Members.get? p.members key) else
      Members.get? p.members other := by
  -- a failed child leaves every member where it is
  have hstay : (if key = other then Members.get? p.members key else Members.get? p.members other) =
      Members.get? p.members other := by
    split
    next heq => rw [heq]
    next => rfl
  unfold takeChild slot
  cases hok : o.isOk with
  | false =>
    simp only [Bool.not_false, if_true]
    rw [hstay]
    unfold ObjectPass.fail
    split <;> rfl
  | true =>
    simp only [Bool.not_true, Bool.false_eq_true, if_false]
    unfold keepChild
    cases hdefined : o.value.isDefined with
    | true =>
      simp only [Bool.or_true, if_true]
      split <;> exact Members.get?_insert ..
    | false =>
      simp only [Bool.or_false, Bool.false_eq_true, if_false]
      cases o.strip with
      | true =>
        simp only [if_true]
        unfold Members.contains
        cases hold : Members.get? p.members key with
        | some v =>
          simp only [Option.isSome_some, if_true, Option.map_some]
          exact Members.get?_insert ..
        | none =>
          rw [hold] at hstay
          simp only [Option.isSome_none, Bool.false_eq_true, if_false, Option.map_none]
          exact hstay.symm
      | false =>
        simp only [Bool.false_eq_true, if_false]
        unfold ObjectPass.member
        split
        · exact Members.get?_erase ..
        · exact hstay.symm

/-- What comes of a child leaves keys of their own. -/
theorem distinct_takeChild (site : Site) {p : ObjectPass}
    (h : Members.Distinct p.members) (key : String)
    (o : Outcome) : Members.Distinct (takeChild site p key o).members := by
  unfold takeChild keepChild
  split
  · unfold ObjectPass.fail
    split <;> exact h
  · split
    · dsimp only
      split
      · exact h.insert key _
      · exact h
    · split
      · exact h.insert key _
      · split
        · exact h.erase key
        · exact h

/-- A child that passes has nothing to report, so this holds of both kinds. -/
theorem reports_takeChild (site : Site) (p : ObjectPass) (key : String) (o : Outcome) :
    (takeChild site p key o).reports = p.reports ++ o.reports := by
  unfold takeChild
  cases hok : o.isOk with
  | true =>
    simp only [Bool.not_true, Bool.false_eq_true, if_false]
    rw [(keepChild_same p key o).1, List.isEmpty_iff.mp hok, List.append_nil]
  | false =>
    simp only [Bool.not_false, if_true]
    unfold ObjectPass.fail
    rw [if_neg (by rw [show o.reports.isEmpty = false from hok]; exact Bool.false_ne_true)]

section

variable {site : Site} {p q : ObjectPass} {o o' : Outcome}

/-- An outcome after which the check goes on. -/
def Harmless (site : Site) (o : Outcome) : Prop := site.prefs.abortEarly = true → o.isOk = true

/-- A child that is harmless ends nothing. -/
theorem goes_takeChild (hp : p.stopped = false) (key : String) (ho : Harmless site o) :
    (takeChild site p key o).stopped = false := by
  rw [stopped_takeChild site key o hp]
  cases hearly : site.prefs.abortEarly with
  | true => rw [ho hearly, Bool.not_true, Bool.false_and]
  | false => exact Bool.and_false _

/-- What comes of one child keeps working copies alike. -/
theorem takeChild_alike (h : p.Alike q) (key : String) (ho : Harmless site o) :
    (takeChild site p key o).Alike (takeChild site q key o) := by
  refine ⟨⟨distinct_takeChild site h.members.left key o,
    distinct_takeChild site h.members.right key o,
    fun other => ?_⟩, ?_, fun other =>
    ?_, goes_takeChild h.goes key ho, goes_takeChild h.goes' key ho⟩
  · rw [get?_takeChild, get?_takeChild, h.members.get?, h.members.get?]
  · rw [reports_takeChild, reports_takeChild, List.map_append, List.map_append]
    exact h.reports.append_right _
  · rw [stripped_takeChild, stripped_takeChild, List.mem_append, List.mem_append, h.stripped]

/-- Children under different keys may change places. -/
theorem takeChild_comm (hp : Members.Distinct p.members) (hgoes : p.stopped = false)
    {key other : String} (hne : key ≠ other) (ho : Harmless site o) (ho' : Harmless site o') :
    (takeChild site (takeChild site p key o) other o').Alike
      (takeChild site (takeChild site p other o') key o) := by
  have hgoes₁ := goes_takeChild hgoes key ho
  have hgoes₂ := goes_takeChild hgoes other ho'
  refine ⟨⟨?_, ?_, fun k => ?_⟩, ?_, fun k => ?_, goes_takeChild hgoes₁ other ho',
    goes_takeChild hgoes₂ key ho⟩
  · exact distinct_takeChild site (distinct_takeChild site hp key o) other o'
  · exact distinct_takeChild site (distinct_takeChild site hp other o') key o
  · simp only [get?_takeChild]
    rw [if_neg hne, if_neg (Ne.symm hne)]
    by_cases hk : key = k
    · rw [if_pos hk, if_neg fun hother => hne (hk.trans hother.symm), if_pos hk]
    · rw [if_neg hk, if_neg hk]
  · simp only [reports_takeChild]
    rw [List.append_assoc, List.append_assoc, List.map_append, List.map_append,
      List.map_append, List.map_append]
    exact (List.perm_append_comm).append_left _
  · simp only [stripped_takeChild, List.mem_append]
    exact or_right_comm

/-- Takes the children in turn, each with the outcome that is known of it. -/
def takeAll (site : Site) (known : String × Schema → Outcome) (p : ObjectPass)
    (children : List (String × Schema)) :
    ObjectPass :=
  children.foldl (fun p child => takeChild site p child.1 (known child)) p

variable {known : String × Schema → Outcome} {children others : List (String × Schema)}

/-- What comes of all children keeps working copies alike. -/
theorem takeAll_alike (hknown : ∀ child ∈ children, Harmless site (known child)) (h : p.Alike q) :
    (takeAll site known p children).Alike (takeAll site known q children) := by
  induction children generalizing p q with
  | nil => exact h
  | cons child rest ih =>
    exact ih (fun c hc => hknown c (List.mem_cons_of_mem _ hc))
      (takeChild_alike h child.1 (hknown child (List.mem_cons_self ..)))

/-- Children with distinct keys may be taken in any order. -/
theorem takeAll_perm (hperm : children.Perm others)
    (hknown : ∀ child ∈ children, Harmless site (known child))
    (hkeys : Members.Distinct children) (h : p.Alike q) :
    (takeAll site known p children).Alike (takeAll site known q others) := by
  induction hperm generalizing p q with
  | nil => exact h
  | cons child _ ih =>
    exact ih (fun c hc => hknown c (List.mem_cons_of_mem _ hc)) (List.nodup_cons.mp hkeys).2
      (takeChild_alike h child.1 (hknown child (List.mem_cons_self ..)))
  | swap c d rest =>
    have hne : d.1 ≠ c.1 := fun heq => (List.nodup_cons.mp hkeys).1 (List.mem_cons.mpr (.inl heq))
    have hd := hknown d (List.mem_cons_self ..)
    have hc := hknown c (List.mem_cons_of_mem _ (List.mem_cons_self ..))
    have hrest : ∀ child ∈ rest, Harmless site (known child) := fun child hchild =>
      hknown child (List.mem_cons_of_mem _ (List.mem_cons_of_mem _ hchild))
    -- the two change places, and the rest comes after them on both sides
    have hboth := (takeChild_comm h.members.left h.goes hne hd hc).trans
      (takeChild_alike (takeChild_alike h c.1 hc) d.1 hd)
    exact takeAll_alike hrest hboth
  | trans hfirst _ ih₁ ih₂ =>
    have hkeys' := (hfirst.map Prod.fst).nodup_iff.mp hkeys
    exact (ih₁ hknown hkeys (.refl h.members.left h.goes)).trans
      (ih₂ (fun c hc => hknown c (hfirst.mem_iff.mpr hc)) hkeys' h)

end

end ObjectForm

end Conform
