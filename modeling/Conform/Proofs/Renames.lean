import Conform.Proofs.Findings

/-!
# Renames

Renames are taken one after another over the working copy of an object's members, each over what
those before it left. What becomes of one (`Rename.fate`) is a matter of the working copy and of the
targets taken so far: there may be nothing to move, it may be in conflict and is reported, or it is
made. A `Renaming` is the record of such a run.

A rename that neither keeps its source, nor shares its target, nor overwrites one finds its target
free when it is made. So it carries a value from one key to another, and over a whole run the values
stay what they are, wherever they stand (`RenameTurn.defined_after`, `Renaming.keeps`). A value that
is undefined may be dropped on the way, since an undefined member is none.

What a rename leaves alone is said with a set of keys that it does not name: the entries under these
are the same before and after, in their order (`Members.among`). Over a run the set is that of the
keys that no rename names. That a rename in conflict changes nothing at all is part of the record,
each turn of which says what the rename found, what became of it and what it left.

Main statement: `ObjectForm.renames_lose_nothing`.
-/

namespace Conform

namespace Members

variable {α : Type} {members : List (String × α)} {key : String} {keep : String → Bool}

/-! ### Entries under some of the keys -/

/-- The entries under the keys in question, in their order. -/
def among (members : List (String × α)) (keep : String → Bool) : List (String × α) :=
  members.filter fun entry => keep entry.1

/-- Another key may be written. -/
theorem among_insert (h : keep key = false) (value : α) :
    among (insert members key value) keep = among members keep := by
  have hskip (entry : String × α) (hentry : entry.1 = key) (rest : List (String × α)) :
      among (entry :: rest) keep = among rest keep :=
    List.filter_cons_of_neg (by rw [hentry, h]; exact Bool.false_ne_true)
  induction members with
  | nil => exact hskip _ rfl []
  | cons entry rest ih =>
    unfold insert
    split
    next hk => rw [hskip _ rfl, hskip _ hk]
    next =>
      unfold among at ih ⊢
      rw [List.filter_cons, List.filter_cons, ih]

/-- Another key may be removed. -/
theorem among_erase (h : keep key = false) :
    among (erase members key) keep = among members keep := by
  unfold among erase
  rw [List.filter_filter]
  refine List.filter_congr fun entry _ => ?_
  by_cases hk : entry.1 = key
  · rw [hk, h, Bool.false_and]
  · rw [bne_iff_ne.mpr hk, Bool.and_true]

/-- A key that is kept is found where it was. -/
theorem get?_among (h : keep key = true) : get? (among members keep) key = get? members key := by
  induction members with
  | nil => rfl
  | cons entry rest ih =>
    obtain ⟨k, v⟩ := entry
    rw [get?_cons]
    unfold among at ih ⊢
    rw [List.filter_cons]
    cases hkeep : keep k with
    | true => rw [if_pos rfl, get?_cons, ih]
    | false =>
      have hk : k ≠ key := by
        rintro rfl
        exact absurd (h.symm.trans hkeep) (by decide)
      rw [if_neg Bool.false_ne_true, if_neg hk, ih]

/-- The values of members that have one, in the order of their keys. -/
def defined (members : List (String × Value)) : List Value :=
    (values members).filter Value.isDefined

/-- Entries in another order have the same values in another order. -/
theorem perm_defined {a b : List (String × Value)} (h : a.Perm b) : (defined a).Perm (defined b) :=
  (h.map Prod.snd).filter _

end Members

/-! ### What becomes of a rename -/

/-- What becomes of a rename. -/
inductive Rename.Fate
  /-- There is nothing to move. -/
  | idle
  /-- It is in conflict, and reported by this code. -/
  | refused (code : String)
  /-- It is made, with the value that its source has. -/
  | made (value : Value)

namespace Rename

/-- What becomes of a rename over a working copy; `taken` are the targets of
those made before it. -/
def fate (rename : Rename) (taken : List String) (p : ObjectPass) : Fate :=
  match Members.get? p.members rename.source with
  | none => .idle
  | some value =>
    if rename.options.ignoreUndefined && !value.isDefined then .idle
    else
      match ObjectForm.renameConflict? rename taken p with
      | some code => .refused code
      | none => .made value

/-- The rename takes its source away, and its target is nobody else's. -/
structure IsBare (rename : Rename) : Prop where
  keepSource : rename.options.keepSource = false
  multiple : rename.options.multiple = false
  override : rename.options.override = false

instance (rename : Rename) : Decidable rename.IsBare :=
  decidable_of_iff (rename.options.keepSource = false ∧ rename.options.multiple = false ∧
    rename.options.override = false) ⟨fun ⟨h, h', h''⟩ =>
    ⟨h, h', h''⟩, fun ⟨h, h', h''⟩ => ⟨h, h', h''⟩⟩

/-- A rename that is made moves what its source has, and is in no conflict. -/
theorem fate_made {rename : Rename} {taken : List String} {p : ObjectPass} {value : Value}
    (h : rename.fate taken p = .made value) : Members.get? p.members rename.source = some value ∧
      ObjectForm.renameConflict? rename taken p = none := by
  unfold fate at h
  split at h
  · exact nomatch h
  next found hget =>
    split at h
    · exact nomatch h
    · split at h
      · exact nomatch h
      next hnone =>
        obtain rfl := Fate.made.inj h
        exact ⟨hget, hnone⟩

/-- The target of a bare rename that is in no conflict is free. -/
theorem IsBare.target_free {rename : Rename} (hbare : rename.IsBare)
    {taken : List String} {p : ObjectPass}
    (h : ObjectForm.renameConflict? rename taken p = none) :
    rename.target ∉ Members.keys p.members := by
  rw [← Members.contains_iff]
  intro hthere
  unfold ObjectForm.renameConflict? at h
  dsimp only at h
  rw [hbare.multiple, hbare.override, hthere] at h
  cases htaken : taken.contains rename.target <;> rw [htaken] at h <;> exact nomatch h

end Rename

/-- A rename as it is taken. -/
structure RenameTurn where
  rename : Rename
  fate : Rename.Fate
  /-- The working copy that it finds. -/
  before : ObjectPass

namespace RenameTurn

/-- What is reported. -/
def reports (site : Site) (t : RenameTurn) : List Report :=
  match t.fate with
  | .refused code =>
    [site.report code t.before.value
      [("from", .string t.rename.source), ("to", .string t.rename.target)]]
  | _ => []

/-- The working copy that it leaves. -/
def after (site : Site) (t : RenameTurn) : ObjectPass :=
  match t.fate with
  | .made value => ObjectForm.move t.rename value t.before
  | _ => t.before.fail site (t.reports site)

/-- The targets taken after it. -/
def takenAfter (taken : List String) (t : RenameTurn) : List String :=
  match t.fate with
  | .made _ => t.rename.target :: taken
  | _ => taken

end RenameTurn

/-- Renames taken one after another, each over what the one before it left,
until one ends the check. -/
inductive Renaming (site : Site) :
    List String → ObjectPass → List Rename → List RenameTurn → ObjectPass → Prop
  | done {taken : List String} {p : ObjectPass} : Renaming site taken p [] [] p
  | ended {taken : List String} {p : ObjectPass} {renames : List Rename} :
      p.stopped = true → Renaming site taken p renames [] p
  | turn {taken : List String} {p last : ObjectPass} {rename : Rename}
      {rest : List Rename} {t : RenameTurn}
      {turns : List RenameTurn} : p.stopped = false → t = ⟨rename, rename.fate taken p, p⟩ →
      Renaming site (t.takenAfter taken) (t.after site) rest turns last →
      Renaming site taken p (rename :: rest) (t :: turns) last

namespace ObjectForm

/-- The renames that are left are taken over what the first one leaves. -/
theorem applyRenames_cons (site : Site) {taken : List String} {p : ObjectPass}
    (hp : p.stopped = false)
    {rename : Rename} {t : RenameTurn} (ht : t = ⟨rename, rename.fate taken p, p⟩)
    (rest : List Rename) :
    applyRenames site taken p (rename :: rest) =
      applyRenames site (t.takenAfter taken) (t.after site) rest := by
  subst ht
  conv_lhs => unfold applyRenames
  rw [if_neg (by rw [hp]; exact Bool.false_ne_true)]
  unfold Rename.fate
  cases Members.get? p.members rename.source with
  | none => rfl
  | some value =>
    dsimp only
    by_cases hmissing : (rename.options.ignoreUndefined && !value.isDefined) = true
    · rw [if_pos hmissing, if_pos hmissing]
      rfl
    · rw [if_neg hmissing, if_neg hmissing]
      cases renameConflict? rename taken p <;> rfl

/-- The renames of an object have a record. -/
theorem renaming_applyRenames (site : Site) (taken : List String) (p : ObjectPass)
    (renames : List Rename) :
    ∃ turns, Renaming site taken p renames turns (applyRenames site taken p renames) := by
  induction renames generalizing taken p with
  | nil => exact ⟨[], .done⟩
  | cons rename rest ih =>
    cases hp : p.stopped with
    | true =>
      have hended : applyRenames site taken p (rename :: rest) = p := by
        unfold applyRenames
        exact if_pos hp
      rw [hended]
      exact ⟨[], .ended hp⟩
    | false =>
      rw [applyRenames_cons site hp rfl]
      obtain ⟨turns, hturns⟩ := ih _ _
      exact ⟨_ :: turns, .turn hp rfl hturns⟩

/-! ### One rename -/

variable {rename : Rename} {p : ObjectPass}

/-- Moving a value keeps keys distinct. -/
theorem distinct_move (rename : Rename) (value : Value) (h : Members.Distinct p.members) :
    Members.Distinct (move rename value p).members := by
  have hwritten : Members.Distinct
      (if value.isDefined = true then p.write rename.target value else
        p.erase rename.target).members := by
    split
    · exact h.insert _ _
    · exact h.erase _
  unfold move
  dsimp only
  split
  · exact hwritten.erase _
  · exact hwritten

/-- Moving a value leaves the other keys as they are. -/
theorem among_move {keep : String → Bool} (hsource : keep rename.source = false)
    (htarget : keep rename.target = false) (value : Value) :
    Members.among (move rename value p).members keep = Members.among p.members keep := by
  have hwritten : Members.among
      (if value.isDefined = true then p.write rename.target value else
        p.erase rename.target).members keep = Members.among p.members keep := by
    split
    · exact Members.among_insert htarget value
    · exact Members.among_erase htarget
  unfold move
  dsimp only
  split
  · exact (Members.among_erase hsource).trans hwritten
  · exact hwritten

/-- Under a free target the moved value is the last. -/
theorem members_move (hkeep : rename.options.keepSource = false)
    (htarget : rename.target ∉ Members.keys p.members)
    {value : Value} (hget : Members.get? p.members rename.source = some value) :
    (move rename value p).members =
      Members.erase p.members rename.source ++
        if value.isDefined then [(rename.target, value)] else [] := by
  -- the source is there and the target is not, so they are two keys
  have hne : rename.target ≠ rename.source := by
    intro heq
    rw [heq, ← Members.get?_eq_none_iff, hget] at htarget
    exact nomatch htarget
  unfold move
  rw [hkeep, bne_iff_ne.mpr hne.symm]
  dsimp only
  rw [if_pos (by decide)]
  split
  · show Members.erase (Members.insert p.members rename.target value) rename.source = _
    rw [Members.insert_of_not_mem htarget]
    refine (List.filter_append ..).trans (congrArg (Members.erase p.members rename.source ++ ·) ?_)
    exact List.filter_cons_of_pos (bne_iff_ne.mpr hne)
  · show Members.erase (Members.erase p.members rename.target) rename.source = _
    rw [Members.erase_of_not_mem htarget, List.append_nil]

/-- Moving a value strips nothing. -/
theorem stripped_move (rename : Rename) (value : Value) (p : ObjectPass) :
    (move rename value p).stripped = p.stripped := by
  unfold move
  dsimp only
  split
  · split <;> rfl
  · split <;> rfl

end ObjectForm

namespace ObjectPass

variable (p : ObjectPass) (site : Site) (reports : List Report)

/-- A report leaves the working copy as it is. -/
theorem members_fail : (p.fail site reports).members = p.members := by
  unfold fail
  split <;> rfl

/-- A report strips nothing. -/
theorem stripped_fail : (p.fail site reports).stripped = p.stripped := by
  unfold fail
  split <;> rfl

end ObjectPass

namespace RenameTurn

variable {site : Site} {t : RenameTurn}

/-- What becomes of the rename is a matter of the working copy that it finds. -/
def IsFair (t : RenameTurn) : Prop := ∃ taken, t.fate = t.rename.fate taken t.before

/-- After a rename its reports stand behind those before. -/
theorem reports_after (site : Site) (t : RenameTurn) :
    (t.after site).reports = t.before.reports ++ t.reports site := by
  unfold after reports
  cases t.fate with
  | made value => exact (ObjectForm.finds_move ..).1.trans (List.append_nil _).symm
  | idle => exact (List.append_nil _).symm
  | refused code => rfl

/-- A rename strips nothing. -/
theorem stripped_after (site : Site) (t : RenameTurn) :
    (t.after site).stripped = t.before.stripped := by
  unfold after
  cases t.fate with
  | made value => exact ObjectForm.stripped_move ..
  | _ => exact ObjectPass.stripped_fail ..

/-- Unless a rename is made, the members stay as they are. -/
theorem members_after (h : ∀ value, t.fate ≠ .made value) :
    (t.after site).members = t.before.members := by
  unfold after
  cases hfate : t.fate with
  | made value => exact absurd hfate (h value)
  | _ => exact ObjectPass.members_fail ..

/-- A rename keeps keys distinct. -/
theorem distinct_after (h : Members.Distinct t.before.members) :
    Members.Distinct (t.after site).members := by
  by_cases hmade : ∃ value, t.fate = .made value
  · obtain ⟨value, hfate⟩ := hmade
    unfold after
    rw [hfate]
    exact ObjectForm.distinct_move t.rename value h
  · rwa [members_after fun value hfate => hmade ⟨value, hfate⟩]

/-- A rename is about its source and its target only. -/
theorem among_after {keep : String → Bool} (hsource : keep t.rename.source = false)
    (htarget : keep t.rename.target = false) :
    Members.among (t.after site).members keep = Members.among t.before.members keep := by
  by_cases hmade : ∃ value, t.fate = .made value
  · obtain ⟨value, hfate⟩ := hmade
    unfold after
    rw [hfate]
    exact ObjectForm.among_move hsource htarget value
  · rw [members_after fun value hfate => hmade ⟨value, hfate⟩]

/-- A value is moved: it is taken away from under the source, and stands under
the target if it is one. -/
structure Moves (site : Site) (value : Value) (t : RenameTurn) : Prop where
  found : Members.get? t.before.members t.rename.source = some value
  gone : t.rename.source ∉ Members.keys (t.after site).members
  stored : Members.get? (t.after site).members t.rename.target =
    if value.isDefined then some value else none
  others : ∀ key, key ≠ t.rename.source → key ≠ t.rename.target →
    Members.get? (t.after site).members key = Members.get? t.before.members key

section Bare

variable (hfair : t.IsFair) (hbare : t.rename.IsBare) {value : Value} (hmade : t.fate = .made value)

include hfair hbare hmade

variable (site) in
/-- A bare rename that is made takes the entry of its source away, and adds one for its target. -/
theorem members_after_made : Members.get? t.before.members t.rename.source = some value ∧
    t.rename.target ∉ Members.keys t.before.members ∧ (t.after site).members =
      Members.erase t.before.members t.rename.source ++
        if value.isDefined then [(t.rename.target, value)] else [] := by
  obtain ⟨taken, hfate⟩ := hfair
  obtain ⟨hget, hfree⟩ := Rename.fate_made (hfate.symm.trans hmade)
  have htarget := hbare.target_free hfree
  refine ⟨hget, htarget, ?_⟩
  unfold after
  rw [hmade]
  exact ObjectForm.members_move hbare.keepSource htarget hget

/-- A rename that is made and is bare moves its value. -/
theorem moves_of_made : t.Moves site value := by
  obtain ⟨hget, htarget, hafter⟩ := members_after_made site hfair hbare hmade
  have hne : t.rename.source ≠ t.rename.target := by
    intro heq
    rw [← heq, ← Members.get?_eq_none_iff, hget] at htarget
    exact nomatch htarget
  have hread (key : String) : Members.get? (t.after site).members key =
      ((if t.rename.source = key then none else Members.get? t.before.members key) <|>
        if value.isDefined ∧ t.rename.target = key then some value else none) := by
    rw [hafter, Members.get?_append, Members.get?_erase]
    cases value.isDefined <;> simp [Members.get?_cons]
  -- the source, the target and all other keys are read off this
  refine ⟨hget, ?_, ?_, fun key hsource htarget => ?_⟩
  · rw [← Members.get?_eq_none_iff, hread, if_pos rfl, if_neg fun h => hne h.2.symm]
    rfl
  · rw [hread, if_neg hne, (Members.get?_eq_none_iff _ _).mpr htarget]
    cases value.isDefined <;> simp
  · rw [hread, if_neg (Ne.symm hsource), if_neg fun h => htarget h.2.symm]
    simp

end Bare

/-- Over a bare rename the values stay what they are. -/
theorem defined_after (hfair : t.IsFair) (hbare : t.rename.IsBare)
    (hbefore : Members.Distinct t.before.members) :
    (Members.defined (t.after site).members).Perm (Members.defined t.before.members) := by
  by_cases hmade : ∃ value, t.fate = .made value
  · obtain ⟨value, hfate⟩ := hmade
    obtain ⟨hget, -, hafter⟩ := members_after_made site hfair hbare hfate
    -- the entry of the source moves to the end; without a value it counted for none, and is gone
    refine .trans ?_ (Members.perm_defined (Members.perm_erase hbefore hget)).symm
    rw [hafter]
    unfold Members.defined Members.values
    rw [List.map_append, List.filter_append, List.map_cons, List.filter_cons]
    cases hdefined : value.isDefined with
    | true =>
      rw [if_pos rfl, if_pos rfl]
      rw [show [(t.rename.target, value)].map Prod.snd = [value] from rfl,
        List.filter_cons_of_pos hdefined]
      exact List.perm_append_comm
    | false =>
      rw [if_neg Bool.false_ne_true, if_neg Bool.false_ne_true]
      rw [List.map_nil, List.filter_nil, List.append_nil]
  · rw [members_after fun value hfate => hmade ⟨value, hfate⟩]

end RenameTurn

/-! ### All renames -/

namespace Renaming

variable {site : Site} {taken : List String} {p last : ObjectPass} {renames : List Rename}
  {turns : List RenameTurn}

/-- What every turn keeps holds at each of them, and in the end. -/
theorem keeps (h : Renaming site taken p renames turns last) {Q : ObjectPass → Prop} (hp : Q p)
    (hstep : ∀ t : RenameTurn, t.IsFair → t.rename ∈ renames → Q t.before → Q (t.after site)) :
    Q last ∧ ∀ t ∈ turns, t.IsFair ∧ t.rename ∈ renames ∧ Q t.before := by
  induction h with
  | done => exact ⟨hp, List.forall_mem_nil _⟩
  | ended => exact ⟨hp, List.forall_mem_nil _⟩
  | @turn taken p last rename rest t turns hgoes ht hrest ih =>
    have hfair : t.IsFair := ⟨taken, by rw [ht]⟩
    have hmem : t.rename ∈ rename :: rest := by
      rw [ht]
      exact List.mem_cons_self ..
    have hbefore : Q t.before := by rwa [ht]
    obtain ⟨hlast, hturns⟩ := ih (hstep t hfair hmem hbefore) fun t ht hin =>
      hstep t ht (List.mem_cons_of_mem _ hin)
    refine ⟨hlast, List.forall_mem_cons.mpr ⟨⟨hfair, hmem, hbefore⟩, fun t ht => ?_⟩⟩
    obtain ⟨hfair, hin, hq⟩ := hturns t ht
    exact ⟨hfair, List.mem_cons_of_mem _ hin, hq⟩

/-- What is reported is what the renames that are refused report. -/
theorem reports (h : Renaming site taken p renames turns last) :
    last.reports = p.reports ++ turns.flatMap (RenameTurn.reports site) := by
  induction h with
  | done => exact (List.append_nil _).symm
  | ended => exact (List.append_nil _).symm
  | turn _ ht _ ih =>
    rw [ih, RenameTurn.reports_after, List.flatMap_cons, ← List.append_assoc, ht]

end Renaming

namespace ObjectForm

variable (site : Site) (renames : List Rename) {members : List (String × Value)}

/-- Keys that no rename names stay as they are. -/
theorem among_applyRenames (taken : List String) (p : ObjectPass) {keep : String → Bool}
    (hkeep : ∀ r ∈ renames, keep r.source = false ∧ keep r.target = false) :
    Members.among (applyRenames site taken p renames).members keep =
      Members.among p.members keep := by
  obtain ⟨turns, hturns⟩ := renaming_applyRenames site taken p renames
  refine (hturns.keeps (Q :=
    fun q => Members.among q.members keep = Members.among p.members keep) rfl ?_).1
  intro t _ hin hbefore
  obtain ⟨hsource, htarget⟩ := hkeep t.rename hin
  exact (RenameTurn.among_after hsource htarget).trans hbefore

/-- Renames strip nothing. -/
theorem stripped_applyRenames (taken : List String) (p : ObjectPass) :
    (applyRenames site taken p renames).stripped = p.stripped := by
  obtain ⟨turns, hturns⟩ := renaming_applyRenames site taken p renames
  exact (hturns.keeps (Q := fun q => q.stripped = p.stripped) rfl fun t _ _ =>
    (t.stripped_after site).trans).1

/-- Renames keep keys distinct. -/
theorem distinct_applyRenames (taken : List String) {p : ObjectPass}
    (h : Members.Distinct p.members) :
    Members.Distinct (applyRenames site taken p renames).members := by
  obtain ⟨turns, hturns⟩ := renaming_applyRenames site taken p renames
  exact (hturns.keeps (Q := fun q => Members.Distinct q.members) h fun t _ _ => t.distinct_after).1

/-- Renames are reported or made. One that is reported as a conflict changes nothing; keys that none
is about keep their members; and where renames neither keep their source, nor share a target, nor
overwrite one, each that is made moves a value from its source to its target, and altogether the
values stay what they are. -/
theorem renames_lose_nothing (hmembers : Members.Distinct members) :
    ∃ turns, Renaming site [] { members } renames turns (applyRenames site [] { members } renames) ∧
      (applyRenames site [] { members } renames).reports = turns.flatMap (RenameTurn.reports site) ∧
      (∀ t ∈ turns, t.reports site ≠ [] → (t.after site).members = t.before.members) ∧
      (∀ key, (∀ r ∈ renames, r.source ≠ key ∧ r.target ≠ key) →
        Members.get? (applyRenames site [] { members } renames).members key =
          Members.get? members key) ∧
      ((∀ r ∈ renames, r.IsBare) →
        (Members.defined (applyRenames site [] { members } renames).members).Perm
          (Members.defined members) ∧
        ∀ t ∈ turns, ∀ value, t.fate = .made value → t.Moves site value) := by
  obtain ⟨turns, hturns⟩ := renaming_applyRenames site [] { members } renames
  refine ⟨turns, hturns, hturns.reports, fun t _ hreports => ?_,
    fun key hkey => ?_, fun hbare => ?_⟩
  · refine RenameTurn.members_after fun value hmade => hreports ?_
    unfold RenameTurn.reports
    rw [hmade]
  · -- a key apart from all sources and targets
    have hsame : (key == key) = true := beq_self_eq_true key
    have hamong : Members.among (applyRenames site [] { members } renames).members (key == ·) =
        Members.among members (key == ·) :=
        among_applyRenames site renames [] { members } fun r hr =>
      ⟨beq_eq_false_iff_ne.mpr (hkey r hr).1.symm, beq_eq_false_iff_ne.mpr (hkey r hr).2.symm⟩
    rw [← Members.get?_among hsame, hamong, Members.get?_among hsame]
  · -- the values are the same over one turn only if keys are distinct, so both are carried along
    have hkept := hturns.keeps
      (Q := fun q => Members.Distinct q.members ∧
        (Members.defined q.members).Perm (Members.defined members))
      ⟨hmembers, .refl _⟩ fun t hfair hin ⟨hdistinct, hperm⟩ =>
        ⟨t.distinct_after hdistinct, (t.defined_after hfair (hbare _ hin) hdistinct).trans hperm⟩
    refine ⟨hkept.1.2, fun t ht value hmade => ?_⟩
    obtain ⟨hfair, hin, -⟩ := hkept.2 t ht
    exact t.moves_of_made hfair (hbare _ hin) hmade

/-- A key that is moved and moved back, and one without a value. -/
def backAndForth : List Rename := [⟨"a", "d", {}⟩, ⟨"b", "e", {}⟩, ⟨"d", "a", {}⟩]

def oneMissing : List (String × Value) := [("a", .bool true), ("b", .undefined), ("c", .null)]

def oneMissingSite : Site :=
  ⟨{}, Schema.ofForm (.object { renames := backAndForth }), .root, {}, .object oneMissing⟩

/-- Two renames back and forth lose nothing of an object without one of the keys. -/
theorem renames_lose_nothing_backAndForth :
    Members.Distinct oneMissing ∧ (∀ r ∈ backAndForth, r.IsBare) ∧
    (applyRenames oneMissingSite [] { members := oneMissing } backAndForth).reports = [] ∧
    (applyRenames oneMissingSite [] { members := oneMissing } backAndForth).members =
      [("c", .null), ("a", .bool true)] ∧
    (Members.defined [("c", .null), ("a", .bool true)]).Perm (Members.defined oneMissing) ∧
    ∃ turns, Renaming oneMissingSite [] { members := oneMissing } backAndForth turns
        (applyRenames oneMissingSite [] { members := oneMissing } backAndForth) ∧
      ∀ t ∈ turns, ∀ value, t.fate = .made value → t.Moves oneMissingSite value := by
  have hdistinct : Members.Distinct oneMissing := by
    unfold Members.Distinct
    decide
  have hbare : ∀ r ∈ backAndForth, r.IsBare := by decide
  obtain ⟨turns, hturns, -, -, -, hmoves⟩ :=
    renames_lose_nothing oneMissingSite backAndForth hdistinct
  obtain ⟨hvalues, hmade⟩ := hmoves hbare
  exact ⟨hdistinct, hbare, rfl, rfl, hvalues, turns, hturns, hmade⟩

end ObjectForm

end Conform
