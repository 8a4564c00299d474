import Conform.Proofs.ConcatLaws
import Conform.Proofs.Repatched

/-!
# Patches in layers

Patches of preferences form a monoid that acts on preferences: what is merged first and applied then
is applied one after the other (`merged_merge`), down to the order of the codes of messages. So the
one patch that a node keeps stands for all that went into it, by calls and by concatenation
(`Schema.Layered`), and the node is checked as if they were applied one by one
(`Schema.Layered.merged`).

The monoid laws are those of merging, and each setting of a patch obeys them by itself: a
setting that is set overrides, one that is not set leaves what there was, and tables of
messages are overlaid code by code. The empty patch is neutral on both sides. That applying is
an action of that monoid says that the preferences under two patches one after the other are
those under the merged patch.

For nodes, `Schema.Layered` records which patches went into a schema, by the calls that made it.
Every call that is given a patch adds it as the last layer, a concatenation adds the layers of the
second schema after those of the first, and no other call touches the patch. Checking a node only
asks for the preferences that its patch leads to, so the node is checked as though it had none and
its layers had been applied around it, one after another.

Main statement: `PreferencesPatch.merge_acts`.
-/

namespace Conform

/-! ### A monoid and its action -/

namespace PreferencesPatch

theorem empty_merge (p : PreferencesPatch) : merge {} p = p := by
  unfold merge
  rw [MessageTable.empty_insertAll]
  simp

theorem merge_empty (p : PreferencesPatch) : p.merge {} = p := by
  unfold merge
  rw [MessageTable.insertAll_empty]
  simp

theorem apply_merge (a b : PreferencesPatch) (base : Preferences) :
    (a.merge b).apply base = b.apply (a.apply base) := by
  have hlater {α : Type} (later earlier : Option α) (inherited : α) :
      (later <|> earlier).getD inherited = later.getD (earlier.getD inherited) := by
    cases later <;> rfl
  unfold apply merge
  simp only [hlater, MessageTable.insertAll_assoc]

end PreferencesPatch

namespace Preferences

theorem merged_merge (a b : PreferencesPatch) (base : Preferences) :
    base.merged (some (a.merge b)) = (base.merged (some a)).merged (some b) := by
  rw [merged_some, merged_some, merged_some, PreferencesPatch.apply_merge]

theorem merged_mergePatches (a b : Option PreferencesPatch) (base : Preferences) :
    base.merged (mergePatches a b) = (base.merged a).merged b := by
  cases a with
  | none => cases b <;> rfl
  | some a =>
    cases b with
    | none => rfl
    | some b => exact merged_merge a b base

/-- The preferences under patches that are applied one after another. -/
def underAll (base : Preferences) (patches : List PreferencesPatch) : Preferences :=
  patches.foldl (fun prefs patch => prefs.merged (some patch)) base

theorem underAll_append (base : Preferences) (patches more : List PreferencesPatch) :
    base.underAll (patches ++ more) = (base.underAll patches).underAll more := List.foldl_append ..

end Preferences

/-! ### What goes into the patch of a node -/

namespace Call

/-- The patches that the call applies to the node. -/
def patches : Call → List PreferencesPatch
  | .prefs patch => [patch]
  | .strict => [{ convert := some false }]
  | _ => []

variable {s t : Schema}

theorem node_prefs_withRule {name : String} {args : List (Argument Schema)}
    (h : s.withRule name args = .ok t) : t.node.prefs = s.node.prefs := by
  obtain ⟨n, hn, rfl⟩ := Attempt.map_ok h
  obtain ⟨spec, -, -, rfl⟩ := Schema.addRule_ok hn
  rfl

theorem node_prefs_updateObject? {f : ObjectForm Schema → Except SchemaError (ObjectForm Schema)}
    (h : s.updateObject? f = .ok t) : t.node.prefs = s.node.prefs := by
  rcases Schema.updateObject?_ok h with rfl | ⟨form, g, -, -, rfl⟩ <;> rfl

/-- A call without patches leaves the patch of the node alone. -/
theorem node_prefs_apply {call : Call} (hsimple : call.isSimple = true)
    (hpatches : call.patches = []) (h : call.apply s = .ok t) : t.node.prefs = s.node.prefs := by
  cases call with
  | addWhen | under | concat => exact nomatch hsimple
  -- these two bring a patch, against what is assumed
  | prefs | strict => exact nomatch hpatches
  | allow given | valid given =>
    obtain rfl := Except.ok.inj h
    exact Schema.foldl_keeps Node.prefs Node.allow (fun _ _ => rfl) given s.node
  | deny given =>
    obtain rfl := Except.ok.inj h
    exact Schema.foldl_keeps Node.prefs Node.deny (fun _ _ => rfl) given s.node
  | rule added =>
    obtain ⟨name, args, hadd, -⟩ := Schema.withRule_of_ruleCall h
    exact node_prefs_withRule hadd
  | keys | rename => exact node_prefs_updateObject? h
  | replace source | keyPattern source =>
    obtain ⟨pattern, -, h⟩ := Attempt.bind_ok h
    obtain rfl := Except.ok.inj h
    rfl
  | encoding name =>
    obtain ⟨-, rfl⟩ := Schema.withEncoding_ok h
    rfl
  | _ =>
    obtain rfl := Except.ok.inj h
    rfl

end Call

namespace Schema

/-- These patches went into the patch of the node, in this order. -/
inductive Layered : Schema → List PreferencesPatch → Prop
  | bare {s : Schema} : s.node.prefs = none → Layered s []
  | patched {s : Schema} {patches : List PreferencesPatch} (patch : PreferencesPatch) :
      Layered s patches → Layered (s.withPrefs patch) (patches ++ [patch])
  /-- Those of the source come after those of the target. -/
  | concat {s t merged : Schema} {patches more : List PreferencesPatch} : Layered s patches →
      Layered t more → s.concat t = .ok merged → Layered merged (patches ++ more)
  /-- Copies, and whatever else keeps the patch. -/
  | kept {s t : Schema} {patches : List PreferencesPatch} : Layered s patches →
      t.node.prefs = s.node.prefs → Layered t patches

variable {s t : Schema} {patches : List PreferencesPatch}

/-- Calls that put no schemas together add the patches that they apply. -/
theorem Layered.call (hs : s.Layered patches) (call : Call) (hsimple : call.isSimple = true)
    (h : call.apply s = .ok t) : t.Layered (patches ++ call.patches) := by
  have hnone (hpatches : call.patches = []) : t.Layered (patches ++ call.patches) := by
    rw [hpatches, List.append_nil]
    exact hs.kept (Call.node_prefs_apply hsimple hpatches h)
  cases call with
  | prefs patch =>
    obtain rfl := Except.ok.inj h
    exact hs.patched patch
  | strict =>
    obtain rfl := Except.ok.inj h
    exact hs.patched { convert := some false }
  | _ => exact hnone rfl

theorem node_prefs_concat {merged : Schema} (h : s.concat t = .ok merged) :
    merged.node.prefs = mergePatches s.node.prefs t.node.prefs := by
  obtain ⟨form, -, rfl⟩ := concat_ok h
  rfl

/-- The patch of the node leads where its layers lead, one after another. -/
theorem Layered.merged (h : s.Layered patches) (base : Preferences) :
    base.merged s.node.prefs = base.underAll patches := by
  induction h generalizing base with
  | bare hnone =>
    rw [hnone]
    rfl
  | patched patch _ ih =>
    rw [Preferences.underAll_append, ← ih]
    exact Preferences.merged_mergePatches _ (some patch) base
  | concat _ _ hmerged ih ih' =>
    rw [node_prefs_concat hmerged, Preferences.merged_mergePatches, ih, ih',
      Preferences.underAll_append]
  | kept _ hkept ih => rw [hkept, ih]

end Schema

/-- A node is checked as if the layers of its patch were applied one after
another, and it had none. -/
theorem Check.within_layered {s : Schema} {patches : List PreferencesPatch} (hs : s.Layered patches)
    (env : Environment) (fuel : Nat) (value : Value) (position : Position) (prefs : Preferences) :
    Check.within env fuel s value position prefs =
      Check.within env fuel (s.repatched none) value position (prefs.underAll patches) := by
  cases fuel with
  | zero => rfl
  | succ fuel =>
    rw [← hs.merged]
    exact Check.node_repatched env (Check.within env fuel) s value position prefs

/-- Patches form a monoid that acts on preferences: what is merged is applied one after another,
merging is associative, and a patch that overrides nothing is neutral, for merging and for applying.
The node whose patch is made of such layers is checked as the node without a patch, under the
preferences after all of them. -/
theorem PreferencesPatch.merge_acts (p : Preferences) (a b c : PreferencesPatch) (s : Schema)
    (patches : List PreferencesPatch) (hs : s.Layered patches) :
    p.merged (some (a.merge b)) = (p.merged (some a)).merged (some b) ∧
    (a.merge b).merge c = a.merge (b.merge c) ∧
    (∀ e : PreferencesPatch, e.isEmpty = true →
      e.merge a = a ∧ a.merge e = a ∧ p.merged (some e) = p) ∧
    p.merged s.node.prefs = p.underAll patches ∧
    ∀ env fuel value position, Check.within env fuel s value position p =
      Check.within env fuel (s.repatched none) value position (p.underAll patches) := by
  refine ⟨Preferences.merged_merge a b p, merge_assoc a b c, fun e he => ?_, hs.merged p,
    fun env fuel value position => Check.within_layered hs env fuel value position p⟩
  obtain rfl := isEmpty_iff.mp he
  exact ⟨empty_merge a, merge_empty a, rfl⟩

/-- Conversion switched on, and texts for two codes. -/
def lenient : PreferencesPatch where
  convert := some true
  messages := .ofList [("number.base", "no"), ("any.required", "gone")]

/-- Texts for two codes, one of them known to the lenient patch. -/
def reworded : PreferencesPatch where
  messages := .ofList [("any.required", "missing"), ("number.min", "small")]

/-- Numbers that are lenient, then strict, and then extended by what is reworded. -/
theorem PreferencesPatch.merge_acts_reworded :
    ∃ s : Schema, (Schema.number.withPrefs lenient).strict.concat
      (Schema.any.withPrefs reworded) = .ok s ∧
      (({} : Preferences).merged s.node.prefs).convert = false ∧
      (({} : Preferences).merged s.node.prefs).messages.entries =
        [("number.base", "no"), ("any.required", "missing"), ("number.min", "small")] ∧
      ({} : Preferences).merged (some (lenient.merge reworded)) =
        (({} : Preferences).merged (some lenient)).merged (some reworded) := by
  obtain ⟨s, hs⟩ : ∃ s, (Schema.number.withPrefs lenient).strict.concat
      (Schema.any.withPrefs reworded) = .ok s := by
    obtain ⟨n, hn⟩ : ∃ n, (Schema.any.withPrefs reworded).height = n + 1 :=
      ⟨_, (Nat.succ_pred_eq_of_pos (Schema.height_pos _)).symm⟩
    unfold Schema.concat
    rw [hn]
    exact ⟨_, rfl⟩
  have hstrict : (Schema.number.withPrefs lenient).strict.Layered
      [lenient, { convert := some false }] :=
    ((Schema.Layered.bare rfl).patched lenient).call .strict rfl rfl
  have hlayers : s.Layered [lenient, { convert := some false }, reworded] :=
    hstrict.concat ((Schema.Layered.bare rfl).patched reworded) hs
  obtain ⟨hmerged, -, -, hunder, -⟩ := merge_acts {} lenient reworded reworded s _ hlayers
  refine ⟨s, hs, ?_, ?_, hmerged⟩
  · rw [hunder]
    decide
  · rw [hunder]
    decide

end Conform
