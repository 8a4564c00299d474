import Mathlib.Data.List.Infix
import Conform.Check.Node
import Conform.Proofs.Blanks

/-!
# Templates are read once

How a template is made up is said without a scanner: literal text up to the first opening mark, a
name up to the first closing mark behind it, and so on, until no place is left (`Template.MadeUp`).
There is exactly one way, and it is the one that the scanner finds (`madeUp_iff`), so the pieces of
a template depend on the template alone and a message is its literal text with the text of values
between. What is put in is never looked at again.

The scanner goes through characters with two states, inside a place and outside. It is related to
the definition without a scanner by saying what it does up to the next mark: outside, text is read
to the first opening mark (`scanLiteral_front`), and inside, a name is read to the first closing one
(`scanPlace_name`). An opening mark without a closing one behind it opens no place, and the scanner
then takes it for text, with everything behind it; so whether there is a place has to be known
before reading on, and it shows behind the first opening mark (`hasPlace_iff`).

Filling goes by pieces. That a value which itself looks like a template is not scanned again is then
plain, since pieces are filled and joined. The English templates are kept as pieces in the program,
so it is shown that they are what the scanner finds in their texts.

Main statement: `Template.expanded_once`.
-/

namespace Conform.Template

/-! ### Marks -/

/-- A mark of two equal characters stands somewhere in the text. -/
def Marked (c : Char) (cs : List Char) : Prop := [c, c] <:+: cs

instance (c : Char) (cs : List Char) : Decidable (Marked c cs) :=
    inferInstanceAs (Decidable ([c, c] <:+: cs))

theorem marked_cons {c d : Char} {cs : List Char} :
    Marked c (d :: cs) ↔ (d = c ∧ ∃ rest, cs = c :: rest) ∨ Marked c cs := by
  unfold Marked
  rw [List.infix_cons_iff]
  refine or_congr ?_ Iff.rfl
  constructor
  · rintro ⟨rest, hrest⟩
    obtain ⟨rfl, htail⟩ := List.cons.inj hrest
    exact ⟨rfl, rest, htail.symm⟩
  · rintro ⟨rfl, rest, rfl⟩
    exact ⟨rest, rfl⟩

theorem marked_append (c : Char) (front back : List Char) : Marked c (front ++ c :: c :: back) :=
  ⟨front, back, by simp⟩

/-- What a text begins with does not depend on what comes behind its first character. -/
theorem begins_congr {c d : Char} {front back : List Char} (other : List Char)
    (h : ∃ rest, front ++ c :: back = d :: rest) : ∃ rest, front ++ c :: other = d :: rest := by
  obtain ⟨rest, hrest⟩ := h
  obtain rfl | ⟨e, front, rfl⟩ : front = [] ∨ ∃ e tail, front = e :: tail := by cases front <;> simp
  · exact ⟨other, congrArg (· :: other) (List.cons.inj hrest).1⟩
  · exact ⟨front ++ c :: other, congrArg (· :: _) (List.cons.inj hrest).1⟩

/-- A text with a mark is cut at the first one, which what stands before it takes no part in. -/
theorem Marked.first {c : Char} {cs : List Char} (h : Marked c cs) :
    ∃ front back, cs = front ++ c :: c :: back ∧ ¬ Marked c (front ++ [c]) := by
  induction cs with
  | nil => exact absurd (List.infix_nil.mp h) (List.cons_ne_nil _ _)
  | cons d cs ih =>
    by_cases hhere : d = c ∧ ∃ rest, cs = c :: rest
    · obtain ⟨rfl, rest, rfl⟩ := hhere
      refine ⟨[], rest, rfl, ?_⟩
      rw [List.nil_append, marked_cons]
      rintro (⟨-, rest, hrest⟩ | hnone)
      · exact absurd hrest.symm (List.cons_ne_nil _ _)
      · exact absurd (List.infix_nil.mp hnone) (List.cons_ne_nil _ _)
    · obtain ⟨front, back, rfl, hfirst⟩ := ih ((marked_cons.mp h).resolve_left hhere)
      refine ⟨d :: front, back, rfl, ?_⟩
      rw [List.cons_append, marked_cons]
      rintro (⟨rfl, hbegins⟩ | hlater)
      · -- the character before would begin the mark one place earlier
        exact hhere ⟨rfl, begins_congr _ hbegins⟩
      · exact hfirst hlater

/-- Nothing behind a later mark is missing behind the first one. -/
theorem suffix_of_first {c : Char} {front back other behind : List Char}
    (hfirst : ¬ Marked c (front ++ [c]))
    (h : front ++ c :: c :: back = other ++ c :: c :: behind) : behind <:+ back := by
  induction front generalizing other with
  | nil =>
    match other, h with
    | [], h =>
      obtain rfl := (List.cons.inj (List.cons.inj h).2).2
      exact List.suffix_refl _
    | [_], h =>
      obtain rfl := (List.cons.inj (List.cons.inj h).2).2
      exact List.suffix_cons ..
    | _ :: _ :: other, h =>
      obtain rfl := (List.cons.inj (List.cons.inj h).2).2
      exact ⟨other ++ [c, c], by simp⟩
  | cons d front ih =>
    rw [List.cons_append, marked_cons, not_or] at hfirst
    cases other with
    | nil =>
      -- the mark would begin at the very first character, before the first one
      obtain ⟨rfl, hrest⟩ := List.cons.inj h
      exact absurd ⟨rfl, begins_congr [] ⟨behind, hrest⟩⟩ hfirst.1
    | cons e other => exact ih hfirst.2 (List.cons.inj h).2

/-! ### How a template is made up -/

/-- The text with a place in it: a name between marks. -/
def placed (front name back : List Char) : List Char :=
    front ++ '{' :: '{' :: (name ++ '}' :: '}' :: back)

/-- Some mark that opens a place is followed by one that closes it. -/
def HasPlace (cs : List Char) : Prop := ∃ front name back, cs = placed front name back

/-- Whether there is a place shows behind the first opening mark. -/
theorem hasPlace_iff {front behind : List Char} (hfirst : ¬ Marked '{' (front ++ ['{'])) :
    HasPlace (front ++ '{' :: '{' :: behind) ↔ Marked '}' behind := by
  constructor
  · rintro ⟨other, name, back, hplaced⟩
    exact (marked_append '}' name back).trans (suffix_of_first hfirst hplaced).isInfix
  · intro hclosed
    obtain ⟨name, back, rfl, -⟩ := hclosed.first
    exact ⟨front, name, back, rfl⟩

/-- The text is made up of these pieces. -/
inductive MadeUp : List Char → List Piece → Prop
  /-- Without a place all is literal text, marks included. -/
  | rest {tail : List Char} : ¬ HasPlace tail → MadeUp tail [.literal (String.ofList tail)]
  /-- The first opening mark, and the first closing mark behind it, enclose a name. -/
  | place {front name back : List Char} {pieces : List Piece} : ¬ Marked '{' (front ++ ['{']) →
      ¬ Marked '}' (name ++ ['}']) → MadeUp back pieces →
      MadeUp (placed front name back)
        (.literal (String.ofList front) :: .place (Text.trim (String.ofList name)) :: pieces)

/-- A text is made up in some way. -/
theorem exists_madeUp (cs : List Char) : ∃ pieces, MadeUp cs pieces := by
  induction hlength : cs.length using Nat.strong_induction_on generalizing cs with
  | _ length ih =>
    subst hlength
    by_cases hopened : Marked '{' cs
    · obtain ⟨front, behind, rfl, hfirst⟩ := hopened.first
      by_cases hclosed : Marked '}' behind
      · obtain ⟨name, back, rfl, hend⟩ := hclosed.first
        obtain ⟨pieces, hpieces⟩ := ih back.length (by simp; omega) back rfl
        exact ⟨_, .place hfirst hend hpieces⟩
      · exact ⟨_, .rest (mt (hasPlace_iff hfirst).mp hclosed)⟩
    · refine ⟨_, .rest ?_⟩
      rintro ⟨front, name, back, rfl⟩
      exact hopened (marked_append '{' front _)

/-! ### The scanner -/

theorem scanLiteral_step {c : Char} {cs : List Char} (h : ¬ (c = '{' ∧ ∃ rest, cs = '{' :: rest))
    (acc : List Char) : scanLiteral acc (c :: cs) = scanLiteral (c :: acc) cs :=
  scanLiteral.eq_3 acc c cs fun rest hc hcs => h ⟨hc, rest, hcs⟩

theorem scanPlace_step {c : Char} {cs : List Char} (h : ¬ (c = '}' ∧ ∃ rest, cs = '}' :: rest))
    (acc name : List Char) : scanPlace acc name (c :: cs) = scanPlace acc (c :: name) cs :=
  scanPlace.eq_3 acc name c cs fun rest hc hcs => h ⟨hc, rest, hcs⟩

/-- Text without an opening mark is read to its end. -/
theorem scanLiteral_unmarked {cs : List Char} (h : ¬ Marked '{' cs) (acc : List Char) :
    scanLiteral acc cs = [.literal (String.ofList (acc.reverse ++ cs))] := by
  induction cs generalizing acc with
  | nil => rw [scanLiteral, List.append_nil]
  | cons c cs ih =>
    rw [marked_cons, not_or] at h
    rw [scanLiteral_step h.1, ih h.2, List.reverse_cons, List.append_assoc]
    rfl

theorem scanPlace_unmarked {cs : List Char} (h : ¬ Marked '}' cs) (acc name : List Char) :
    scanPlace acc name cs =
      [.literal (String.ofList (acc.reverse ++ '{' :: '{' :: (name.reverse ++ cs)))] := by
  induction cs generalizing name with
  | nil => rw [scanPlace, List.append_nil]
  | cons c cs ih =>
    rw [marked_cons, not_or] at h
    rw [scanPlace_step h.1, ih h.2, List.reverse_cons, List.append_assoc]
    rfl

/-- Text is read up to the first opening mark. -/
theorem scanLiteral_front {front : List Char} (hfirst : ¬ Marked '{' (front ++ ['{']))
    (acc behind : List Char) :
    scanLiteral acc (front ++ '{' :: '{' :: behind) =
      scanPlace (front.reverse ++ acc) [] behind := by
  induction front generalizing acc with
  | nil => rw [List.nil_append, scanLiteral, List.reverse_nil, List.nil_append]
  | cons c front ih =>
    rw [List.cons_append, marked_cons, not_or] at hfirst
    have hstep : ¬ (c = '{' ∧ ∃ rest, front ++ '{' :: '{' :: behind = '{' :: rest) :=
      fun ⟨hc, hbegins⟩ => hfirst.1 ⟨hc, begins_congr [] hbegins⟩
    rw [List.cons_append, scanLiteral_step hstep, ih hfirst.2, List.reverse_cons, List.append_assoc]
    rfl

/-- A name is read up to the first closing mark. -/
theorem scanPlace_name {name : List Char} (hend : ¬ Marked '}' (name ++ ['}']))
    (acc read back : List Char) : scanPlace acc read (name ++ '}' :: '}' :: back) =
      .literal (String.ofList acc.reverse) ::
        .place (Text.trim (String.ofList (read.reverse ++ name))) ::
        scanLiteral [] back := by
  induction name generalizing read with
  | nil => rw [List.nil_append, scanPlace, List.append_nil]
  | cons c name ih =>
    rw [List.cons_append, marked_cons, not_or] at hend
    have hstep : ¬ (c = '}' ∧ ∃ rest, name ++ '}' :: '}' :: back = '}' :: rest) :=
      fun ⟨hc, hbegins⟩ => hend.1 ⟨hc, begins_congr [] hbegins⟩
    rw [List.cons_append, scanPlace_step hstep, ih hend.2, List.reverse_cons, List.append_assoc]
    rfl

theorem scanLiteral_rest {cs : List Char} (h : ¬ HasPlace cs) :
    scanLiteral [] cs = [.literal (String.ofList cs)] := by
  by_cases hopened : Marked '{' cs
  · obtain ⟨front, behind, rfl, hfirst⟩ := hopened.first
    rw [scanLiteral_front hfirst,
      scanPlace_unmarked (mt (hasPlace_iff hfirst).mpr h), List.append_nil,
      List.reverse_reverse]
    rfl
  · exact scanLiteral_unmarked hopened []

/-- The scanner finds the one way in which a text is made up. -/
theorem madeUp_iff {cs : List Char} {pieces : List Piece} :
    MadeUp cs pieces ↔ pieces = scanLiteral [] cs := by
  have hscan {pieces : List Piece} (h : MadeUp cs pieces) : pieces = scanLiteral [] cs := by
    induction h with
    | rest hnone => exact (scanLiteral_rest hnone).symm
    | place hfirst hend _ ih =>
      rw [placed, scanLiteral_front hfirst, scanPlace_name hend, ← ih, List.append_nil,
        List.reverse_reverse, List.reverse_nil, List.nil_append]
  refine ⟨hscan, ?_⟩
  rintro rfl
  obtain ⟨pieces, hpieces⟩ := exists_madeUp cs
  exact hscan hpieces ▸ hpieces

/-! ### What is put in -/

theorem fill_cons (context : List (String × Value)) (piece : Piece) (pieces : List Piece) :
    fill context (piece :: pieces) = fillPiece context piece ++ fill context pieces := by
  unfold fill
  rw [List.map_cons, String.join_cons]

theorem interpolate_unplaced {t : String} (h : ¬ HasPlace t.toList)
    (context : List (String × Value)) : interpolate t context = t := by
  unfold interpolate pieces
  rw [scanLiteral_rest h, fill_cons]
  show String.ofList t.toList ++ "" = t
  rw [String.ofList_toList, String.append_empty]

/-- Up to its first place a template is text, then comes the value, and then
what is made of the rest. -/
theorem interpolate_placed {front name : List Char} (hfirst : ¬ Marked '{' (front ++ ['{']))
    (hend : ¬ Marked '}' (name ++ ['}'])) (back : List Char) (context : List (String × Value)) :
    interpolate (String.ofList (placed front name back)) context =
      String.ofList front ++ (fillPlace context (Text.trim (String.ofList name)) ++
        interpolate (String.ofList back) context) := by
  have hpieces := madeUp_iff.mp (.place hfirst hend (madeUp_iff.mpr rfl : MadeUp back _))
  unfold interpolate pieces
  rw [String.toList_ofList, String.toList_ofList, ← hpieces, fill_cons, fill_cons]
  rfl

/-! ### Templates given as pieces -/

/-- The template text of a piece. -/
def sourceOf : Piece → List Char
  | .literal text => text.toList
  | .place name => '{' :: '{' :: (name.toList ++ ['}', '}'])

/-- The template text of some pieces. -/
def source (pieces : List Piece) : String := String.ofList (pieces.flatMap sourceOf)

/-- Written out, the piece is not taken for anything else. The characters are given beside the text,
so that the texts of a table need not be decoded. -/
def IsPlain : Piece → Prop
  | .literal text => ∃ cs, text = String.ofList cs ∧ cs.all (· != '{') = true
  | .place name => ∃ cs, name = String.ofList cs ∧ cs.all Char.isAlpha = true

theorem not_marked_of_all {c : Char} {cs : List Char} (h : ∀ d ∈ cs, d ≠ c) :
    ¬ Marked c (cs ++ [c]) := by
  induction cs with
  | nil =>
    rw [List.nil_append, marked_cons]
    rintro (⟨-, rest, hrest⟩ | hnone)
    · exact absurd hrest.symm (List.cons_ne_nil _ _)
    · exact absurd (List.infix_nil.mp hnone) (List.cons_ne_nil _ _)
  | cons d cs ih =>
    obtain ⟨hd, hcs⟩ := List.forall_mem_cons.mp h
    rw [List.cons_append, marked_cons, not_or]
    exact ⟨fun hmark => hd hmark.1, ih hcs⟩

theorem scanLiteral_plain {cs : List Char} (h : cs.all (· != '{') = true) (acc behind : List Char) :
    scanLiteral acc (cs ++ behind) = scanLiteral (cs.reverse ++ acc) behind := by
  induction cs generalizing acc with
  | nil => rfl
  | cons c cs ih =>
    rw [List.all_cons, Bool.and_eq_true, bne_iff_ne] at h
    rw [List.cons_append, scanLiteral_step fun hmark => h.1 hmark.1, ih h.2,
      List.reverse_cons, List.append_assoc]
    rfl

theorem trim_of_isAlpha {cs : List Char} (h : cs.all Char.isAlpha = true) :
    Text.trim (String.ofList cs) = String.ofList cs :=
  Text.trim_of_forall fun c hc => Text.isBlank_of_isAlpha (List.all_eq_true.mp h c hc)

/-- Plain pieces that are written out are filled as they are. -/
theorem fill_scan_source {pieces : List Piece}
    (h : ∀ piece ∈ pieces, IsPlain piece) (acc : List Char) (context : List (String × Value)) :
    fill context (scanLiteral acc (pieces.flatMap sourceOf)) =
      String.ofList acc.reverse ++ fill context pieces := by
  induction pieces generalizing acc with
  | nil =>
    rw [List.flatMap_nil, scanLiteral, fill_cons]
    rfl
  | cons piece pieces ih =>
    obtain ⟨hpiece, hrest⟩ := List.forall_mem_cons.mp h
    rw [List.flatMap_cons, fill_cons]
    -- literal text has nothing marked, and a place nothing that closes it
    cases piece with
    | literal text =>
      obtain ⟨cs, rfl, hcs⟩ := hpiece
      rw [sourceOf, String.toList_ofList, scanLiteral_plain hcs, ih hrest, List.reverse_append,
        List.reverse_reverse, String.ofList_append, String.append_assoc]
      rfl
    | place name =>
      obtain ⟨cs, rfl, hcs⟩ := hpiece
      have hend : ∀ c ∈ cs, c ≠ '}' := by
        rintro c hc rfl
        exact absurd (List.all_eq_true.mp hcs _ hc) (by decide)
      rw [sourceOf, String.toList_ofList, List.cons_append, List.cons_append, List.append_assoc]
      show fill context
        (scanLiteral acc ('{' :: '{' :: (cs ++ '}' :: '}' :: pieces.flatMap sourceOf))) = _
      rw [scanLiteral, scanPlace_name (not_marked_of_all hend), fill_cons, fill_cons,
        ih hrest, List.reverse_nil, List.nil_append, trim_of_isAlpha hcs]
      rfl

theorem templates_plain : ∀ entry ∈ Messages.templates, ∀ piece ∈ entry.2, IsPlain piece := by
  unfold Messages.templates
  simp only [List.forall_mem_cons, List.not_mem_nil, false_implies, implies_true, and_true]
  repeat' apply And.intro
  all_goals exact ⟨_, rfl, rfl⟩

/-! ### Where messages come from -/

/-- The English messages are templates too. -/
theorem english_of_source {code : String} {pieces : List Piece}
    (h : Messages.templates.lookup code = some pieces)
    (context : List (String × Value)) (path : List Segment) :
    Messages.english code context path = some (interpolate (source pieces) context) := by
  have hmem : (code, pieces) ∈ Messages.templates := by
    obtain ⟨before, after, htable, -⟩ := List.lookup_eq_some_iff.mp h
    rw [htable]
    exact List.mem_append_right _ (List.mem_cons_self ..)
  have hfill := fill_scan_source (templates_plain _ hmem) [] context
  rw [List.reverse_nil, String.ofList_nil, String.empty_append] at hfill
  unfold Messages.english interpolate Template.pieces source
  rw [h, String.toList_ofList, hfill]
  rfl

/-- A node's own template is filled when the node is finished, and its message stands
as it is from then on. -/
theorem ownMessage_filled {site : Site} {t : String}
    (h : site.node.flags.message = some t) (value : Value)
    {reports : List Report} (hreports : reports ≠ []) :
    ∃ report, site.withOwnMessage value reports = [report] ∧
      ∀ own renderer, (Messages.detail own renderer report).message =
        interpolate t report.context := by
  obtain ⟨first, rest, rfl⟩ := List.exists_cons_of_ne_nil hreports
  refine ⟨{ site.report first.code value with
    message := some (interpolate t (site.report first.code value).context) }, ?_, fun _ _ => rfl⟩
  unfold Site.withOwnMessage
  rw [h]

/-- A template is made up in one way, whatever it is filled from, and filled it is its literal text
and the texts of its places, in order. Without a place it stays as it is; a value that is put in
comes out as it is, and what follows is the rest of the template, filled. So is every message that
is made of the template: that of a node, of the preferences, or of the English table. -/
theorem expanded_once (t : String) :
    (∃! pieces, MadeUp t.toList pieces) ∧
    (∀ pieces, MadeUp t.toList pieces → ∀ context,
      interpolate t context = String.join (pieces.map (fillPiece context))) ∧
    (¬ HasPlace t.toList → ∀ context, interpolate t context = t) ∧
    (∀ front name back, t.toList = placed front name back → ¬ Marked '{' (front ++ ['{']) →
      ¬ Marked '}' (name ++ ['}']) → ∀ context s,
      Members.get? context (Text.trim (String.ofList name)) = some (.string s) →
        interpolate t context = String.ofList front ++
          ((if Text.trim (String.ofList name) = "label" then "\"" ++ s ++ "\"" else s) ++
            interpolate (String.ofList back) context)) ∧
    (∀ (site : Site) (value : Value) (reports : List Report), site.node.flags.message = some t →
      reports ≠ [] →
      ∃ report, site.withOwnMessage value reports = [report] ∧
        ∀ own renderer, (Messages.detail own renderer report).message =
          interpolate t report.context) ∧
    (∀ own renderer (r : Report), r.message = none → Members.get? own r.code = some t →
      (Messages.detail own renderer r).message = interpolate t r.context) ∧
    ∀ code pieces, Messages.templates.lookup code = some pieces →
      source pieces = t → ∀ context path,
      Messages.english code context path = some (interpolate t context) := by
  refine ⟨⟨_, madeUp_iff.mpr rfl, fun _ => madeUp_iff.mp⟩, ?_, interpolate_unplaced, ?_, ?_, ?_, ?_⟩
  · intro pieces hpieces context
    rw [madeUp_iff.mp hpieces]
    rfl
  · intro front name back ht hfirst hend context s hvalue
    have hfilled := interpolate_placed hfirst hend back context
    rw [← ht, String.ofList_toList] at hfilled
    unfold fillPlace at hfilled
    rw [hfilled, hvalue]
  · -- a message of the node, of the preferences, of the table
    intro site value reports hmessage hreports
    exact ownMessage_filled hmessage value hreports
  · intro own renderer r hnone hown
    show Messages.choose own renderer r = _
    unfold Messages.choose
    rw [hnone, hown]
    rfl
  · rintro code pieces hlookup rfl context path
    exact english_of_source hlookup context path

/-- A mark that opens a place. -/
def openMark : String := String.ofList ['{', '{']

/-- A mark that closes a place. -/
def closeMark : String := String.ofList ['}', '}']

/-- A template with two places and a mark that is never closed, and values with marks in them. -/
theorem expanded_once_marks :
    interpolate ("at " ++ openMark ++ " x " ++ closeMark ++ ": " ++ openMark ++ "label" ++
      closeMark ++ " " ++ openMark)
        [("x", .string (openMark ++ "label" ++ closeMark)), ("label", .string closeMark)] =
      "at " ++ openMark ++ "label" ++ closeMark ++ ": \"" ++ closeMark ++ "\" " ++ openMark := by
  have hopen : ¬ HasPlace (" " ++ openMark).toList := by
    have hfirst : ¬ Marked '{' ([' '] ++ ['{']) := by decide
    rw [show (" " ++ openMark).toList = [' '] ++ '{' :: '{' :: [] by decide +kernel]
    exact (hasPlace_iff hfirst).not.mpr (by decide : ¬ Marked '}' [])
  have hx : Text.trim (String.ofList [' ', 'x', ' ']) = "x" := by decide +kernel
  have hlabel : Text.trim (String.ofList "label".toList) = "label" := by decide +kernel
  -- first the whole template, then what stands behind its first place, and then the tail
  obtain ⟨-, -, -, hwhole, -⟩ := expanded_once
    ("at " ++ openMark ++ " x " ++ closeMark ++ ": " ++ openMark ++ "label" ++
      closeMark ++ " " ++ openMark)
  obtain ⟨-, -, -, hbehind, -⟩ :=
    expanded_once (": " ++ openMark ++ "label" ++ closeMark ++ " " ++ openMark)
  obtain ⟨-, -, htail, -⟩ := expanded_once (" " ++ openMark)
  have hwhole := hwhole "at ".toList [' ', 'x', ' ']
    (": " ++ openMark ++ "label" ++ closeMark ++ " " ++ openMark).toList
    (by decide +kernel) (by decide) (by decide)
  have hbehind := hbehind ": ".toList "label".toList (" " ++ openMark).toList (by decide +kernel)
    (by decide) (by decide)
  rw [hx, String.ofList_toList, String.ofList_toList] at hwhole
  rw [hlabel, String.ofList_toList, String.ofList_toList] at hbehind
  rw [hwhole _ (openMark ++ "label" ++ closeMark) rfl, hbehind _ closeMark rfl, htail hopen]
  decide +kernel

end Conform.Template
