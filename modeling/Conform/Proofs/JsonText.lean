import Conform.Proofs.JsonTokens

/-!
# JSON texts read back

Data that is written, on one line or on several, is read as it was written: every member
once and in its order. The numbers must have texts of their own (`Legible`), and the
data must not nest too deep.

What is read of a value does not depend on what follows (`Spells`), so the texts of items and
members are put together with brackets, commas and blanks. The one value that could run on is a
number, so what follows must not look like more of it (`Ends`); commas, brackets and blanks do not.
The reader counts how deep it is and how many steps it may still take, and `Spells` says that steps
enough give the source at each depth that leaves room.

From the words and numbers up, each shape of data is said to be spelt by its text: values of one
word (`spells_null`, `spells_bool`, `spells_string`), then arrays and objects whose items and
members are spelt (`spells_array`, `spells_object`), where the loop of the reader is followed by
induction on the items still to come. The two printers differ only in the blanks that they put
between, so both come to the same two lemmas, with no gap for the compact text and with a new line
and its indentation for the other.

Main statements: `read?_compact` and `read?_pretty`.
-/

namespace Conform.Json

/-! ### Values -/

/-- Blanks in front of a value do not matter. -/
theorem value?_succ (fuel depth : Nat) {cs cs' : List Char} (h : skipBlank cs = skipBlank cs') :
    value? (fuel + 1) depth cs = value? (fuel + 1) depth cs' := by
  rw [value?, value?, h]

/-- The text is read as the source inside `depth` containers, whatever follows that is no part of a
numeral. The blanks behind it may be taken with it. -/
def Spells (depth : Nat) (text : List Char) (source : Source) : Prop :=
  ∀ fuel rest, 2 * text.length < fuel → Ends rest →
    ∃ left, value? fuel depth (text ++ rest) = some (source, left) ∧ skipBlank left = skipBlank rest

/-- The text of a member is its key between quotes, a colon and the text of its value. -/
inductive SpellsMember (depth : Nat) : List Char → String × Source → Prop
  | mk (gap : List Char) (hgap : ∀ c ∈ gap, isJsonBlank c = true) (key : String) {text : List Char}
      {source : Source} (h : Spells depth text source) :
      SpellsMember depth (gap ++ '"' :: (escaped key ++ '"' :: ':' :: text)) (key, source)

section Gap

variable {gap : List Char} (hgap : ∀ c ∈ gap, isJsonBlank c = true)
include hgap

/-- A gap of blanks is skipped. -/
theorem skipBlank_gap (rest : List Char) : skipBlank (gap ++ rest) = skipBlank rest :=
  List.dropWhile_append_of_pos hgap

/-- Blanks may stand in front. -/
theorem Spells.after_gap {depth : Nat} {text : List Char} {source : Source}
    (h : Spells depth text source) : Spells depth (gap ++ text) source := by
  intro fuel rest hfuel hrest
  rw [List.length_append] at hfuel
  obtain ⟨k, rfl⟩ : ∃ k, fuel = k + 1 := ⟨fuel - 1, by omega⟩
  obtain ⟨left, hread, hleft⟩ := h (k + 1) rest (by omega) hrest
  refine ⟨left, ?_, hleft⟩
  rw [List.append_assoc, value?_succ k depth (skipBlank_gap hgap _)]
  exact hread

/-- Behind a gap no number goes on. -/
theorem ends_gap {c : Char} (hc : c.isDigit = false ∧ c ≠ '.' ∧ c ≠ 'e' ∧ c ≠ 'E')
    (rest : List Char) : Ends (gap ++ c :: rest) := by
  cases gap with
  | nil => exact .cons hc rest
  | cons blank gap =>
    refine .cons ?_ _
    have hblank := hgap blank (List.mem_cons_self ..)
    simp only [isJsonBlank, Bool.or_eq_true, beq_iff_eq] at hblank
    rcases hblank with ((rfl | rfl) | rfl) | rfl <;> decide

end Gap

variable {depth : Nat}

/-- A text that is read ends where the reader stops, but for blanks. -/
theorem Spells.of_value? {text : List Char} {source : Source}
    (h : ∀ fuel rest, Ends rest → value? (fuel + 1) depth (text ++ rest) = some (source, rest)) :
    Spells depth text source := by
  intro fuel rest hfuel hrest
  obtain ⟨k, rfl⟩ : ∃ k, fuel = k + 1 := ⟨fuel - 1, by omega⟩
  exact ⟨rest, h k rest hrest, rfl⟩

/-! ### Values of one word -/

/-- A value that begins with none of the signs of strings, containers and negative numbers. -/
theorem value?_other {c : Char} (hblank : isJsonBlank c = false)
    (hsign : c ≠ '"' ∧ c ≠ '[' ∧ c ≠ '\x7b' ∧ c ≠ '-') (fuel : Nat) (cs : List Char) :
    value? (fuel + 1) depth (c :: cs) = if c.isDigit then numeral? false (c :: cs) else
    word? (c :: cs) := by
  obtain ⟨hquote, hbracket, hbrace, hminus⟩ := hsign
  have hskip : skipBlank (c :: cs) = c :: cs := List.dropWhile_cons_of_neg (by simp [hblank])
  rw [value?, hskip]
  split
  next heq => exact absurd (List.cons.inj heq).1 hquote
  next heq => exact absurd (List.cons.inj heq).1 hbracket
  next heq => exact absurd (List.cons.inj heq).1 hbrace
  next heq => exact absurd (List.cons.inj heq).1 hminus
  next heq =>
    obtain ⟨rfl, rfl⟩ := List.cons.inj heq
    rfl
  next heq => exact nomatch heq

/-- A digit begins a number. -/
theorem value?_digit {c : Char} (h : c.isDigit = true) (fuel : Nat) (cs : List Char) :
    value? (fuel + 1) depth (c :: cs) = numeral? false (c :: cs) := by
  have hne {d : Char} (hd : d.isDigit = false) : c ≠ d := by
    rintro rfl
    rw [h] at hd
    exact nomatch hd
  have hblank : isJsonBlank c = false := by
    simp only [isJsonBlank, Bool.or_eq_false_iff, beq_eq_false_iff_ne]
    exact ⟨⟨⟨hne (by decide), hne (by decide)⟩, hne (by decide)⟩, hne (by decide)⟩
  rw [value?_other hblank ⟨hne (by decide), hne (by decide), hne (by decide), hne (by decide)⟩,
    if_pos h]

/-- A minus sign begins a number. -/
theorem value?_minus (fuel : Nat) (cs : List Char) :
    value? (fuel + 1) depth ('-' :: cs) = numeral? true cs := by
  rw [value?]
  rfl

/-- A quoted text is read as the text. -/
theorem spells_string (s : String) : Spells depth (stringText s).toList (.string s) := by
  refine .of_value? fun fuel rest _ => ?_
  rw [toList_stringText, List.cons_append, List.append_assoc, value?]
  show (string? (escaped s ++ '"' :: rest)).map _ = _
  rw [string?_escaped]
  rfl

/-- The word for nothing is read. -/
theorem spells_null : Spells depth "null".toList .null :=
  .of_value? fun fuel rest _ =>
    value?_other (by decide) (by decide) fuel ('u' :: 'l' :: 'l' :: rest)

/-- The words for the two truth values are read. -/
theorem spells_bool (b : Bool) : Spells depth (if b then "true" else "false").toList (.bool b) := by
  cases b with
  | false =>
    exact .of_value? fun fuel rest _ =>
      value?_other (by decide) (by decide) fuel ('a' :: 'l' :: 's' :: 'e' :: rest)
  | true =>
    exact .of_value? fun fuel rest _ =>
      value?_other (by decide) (by decide) fuel ('r' :: 'u' :: 'e' :: rest)

/-- Integers of 64 bits are read as they were written. -/
theorem spells_int {i : Int} (hlow : -2 ^ 63 ≤ i) (hhigh : i < 2 ^ 64) :
    Spells depth (toString i).toList (.int i) := by
  refine .of_value? fun fuel rest hrest => ?_
  cases i with
  | ofNat n =>
    have hn : n < 2 ^ 64 := by simpa using hhigh
    have htext : (toString (Int.ofNat n)).toList = Nat.toDigits 10 n := Nat.toList_repr
    have hread := numeral?_append hrest (numeral?_toDigits false hn)
    rw [htext]
    cases hdigits : Nat.toDigits 10 n with
    | nil => exact absurd hdigits Nat.toDigits_ne_nil
    | cons c cs =>
      have hc : c ∈ Nat.toDigits 10 n := hdigits ▸ List.mem_cons_self ..
      rw [hdigits] at hread
      rw [List.cons_append, value?_digit (Nat.isDigit_of_mem_toDigits (by decide) (by decide) hc)]
      exact hread
  | negSucc n =>
    -- the bound of a negative number is one above that of a positive one
    have hn : n + 1 ≤ 2 ^ 63 := by omega
    have htext : (toString (Int.negSucc n)).toList = '-' :: Nat.toDigits 10 (n + 1) := by
      show ("-" ++ (n + 1).repr).toList = _
      rw [String.toList_append, Nat.toList_repr]
      rfl
    have hread := numeral?_append hrest (numeral?_toDigits true (show n + 1 < 2 ^ 64 by omega))
    have hvalue : whole? true ⟨n + 1, 0, false⟩ = some (.int (.negSucc n)) := by
      have hfits : ¬(n + 1 = 0 ∨ Nat.pow 2 63 < n + 1) := by
        show ¬(n + 1 = 0 ∨ 2 ^ 63 < n + 1)
        omega
      unfold whole?
      simp only [Bool.false_eq_true, if_false, Bool.not_true, if_neg hfits]
      rfl
    rw [htext, List.cons_append, value?_minus, hread, hvalue]
    rfl

/-- Only a numeral is read to be a double. -/
theorem numeral_of_float {fuel : Nat} {cs left : List Char} {n : Number}
    (h : value? fuel depth cs = some (.float n, left)) :
    (∃ ds, skipBlank cs = '-' :: ds ∧ numeral? true ds = some (.float n, left)) ∨
      ∃ c ds, skipBlank cs = c :: ds ∧ c.isDigit = true ∧
        numeral? false (c :: ds) = some (.float n, left) := by
  -- a container is itself or the mark of one too deep, never a double
  have hshallow {container : Source} (hcontainer : container ≠ .float n) :
      ifShallow (depth + 1) container ≠ .float n := by
    unfold ifShallow
    split
    next => exact hcontainer
    next => exact fun heq => nomatch heq
  cases fuel with
  | zero => exact nomatch h
  | succ fuel =>
    rw [value?] at h
    split at h
    next =>
      obtain ⟨⟨text, rest⟩, -, heq⟩ := Option.map_eq_some_iff.mp h
      cases text <;> exact nomatch (Prod.mk.inj heq).1
    next =>
      split at h
      next => exact absurd (Prod.mk.inj (Option.some.inj h)).1 (hshallow fun heq => nomatch heq)
      next =>
        obtain ⟨found, -, heq⟩ := Option.map_eq_some_iff.mp h
        exact absurd (Prod.mk.inj heq).1 (hshallow fun heq => nomatch heq)
    next =>
      split at h
      next => exact absurd (Prod.mk.inj (Option.some.inj h)).1 (hshallow fun heq => nomatch heq)
      next =>
        obtain ⟨⟨members, rest⟩, -, heq⟩ := Option.map_eq_some_iff.mp h
        cases members with
        | none => exact nomatch (Prod.mk.inj heq).1
        | some members => exact absurd (Prod.mk.inj heq).1 (hshallow fun heq => nomatch heq)
    next ds heq => exact .inl ⟨ds, heq, h⟩
    next c ds _ _ _ _ heq =>
      by_cases hdigit : c.isDigit = true
      · rw [if_pos hdigit] at h
        exact .inr ⟨c, ds, heq, hdigit, h⟩
      · rw [if_neg hdigit] at h
        unfold word? at h
        split at h
        next => exact nomatch (Prod.mk.inj (Option.some.inj h)).1
        next => exact nomatch (Prod.mk.inj (Option.some.inj h)).1
        next => exact nomatch (Prod.mk.inj (Option.some.inj h)).1
        next => exact nomatch h
    next => exact nomatch h

/-- A double whose text is read to be it is read so wherever the text stands. -/
theorem spells_float {n : Number} (h : read? (floatText n) = some (.float n)) :
    Spells depth (floatText n).toList (.float n) := by
  unfold read? at h
  dsimp only at h
  generalize (floatText n).toList = text at h ⊢
  split at h
  case h_2 => exact nomatch h
  case h_1 source left hread =>
    by_cases hend : (skipBlank left).isEmpty = true
    · rw [if_pos hend] at h
      obtain rfl := Option.some.inj h
      intro fuel rest hfuel hrest
      obtain ⟨k, rfl⟩ : ∃ k, fuel = k + 1 := ⟨fuel - 1, by omega⟩
      -- blanks end the text alone, so only those of what follows are left to skip
      have hleft : skipBlank (left ++ rest) = skipBlank rest := by
        unfold skipBlank at hend ⊢
        rw [List.dropWhile_append, if_pos hend]
      have hskip {c : Char} {ds : List Char} (hds : skipBlank text = c :: ds) :
          skipBlank (text ++ rest) = skipBlank (c :: (ds ++ rest)) := by
        have hne : ¬isJsonBlank c = true := by
          have hstop := List.head?_dropWhile_not isJsonBlank text
          rw [show List.dropWhile isJsonBlank text = c :: ds from hds] at hstop
          exact Bool.not_eq_true _ ▸ hstop
        have htext : (List.dropWhile isJsonBlank text).isEmpty = false := by
          rw [show List.dropWhile isJsonBlank text = c :: ds from hds]
          rfl
        unfold skipBlank at hds ⊢
        rw [List.dropWhile_append, htext, if_neg Bool.false_ne_true, hds,
          List.dropWhile_cons_of_neg hne]
        rfl
      refine ⟨left ++ rest, ?_, hleft⟩
      rcases numeral_of_float hread with ⟨ds, hds, hnumeral⟩ | ⟨c, ds, hds, hdigit, hnumeral⟩
      · rw [value?_succ k depth (hskip hds), value?_minus]
        exact numeral?_append hrest hnumeral
      · rw [value?_succ k depth (hskip hds), value?_digit hdigit]
        exact numeral?_append hrest hnumeral
    · rw [if_neg hend] at h
      exact nomatch h

/-! ### Containers -/

/-- No value begins with a closing bracket. -/
theorem Spells.not_close {text rest : List Char} {source : Source}
    (h : Spells depth text source) (hrest : Ends rest)
    (left : List Char) : skipBlank (text ++ rest) ≠ ']' :: left := by
  intro hclose
  obtain ⟨remaining, hread, -⟩ := h (2 * text.length + 1) rest (Nat.lt_succ_self _) hrest
  rw [value?, hclose] at hread
  exact nomatch hread

/-- The texts between commas, and a last one that closes. -/
def separated (texts : List (List Char)) (close : List Char) : List Char :=
    [','].intercalate texts ++ close

/-- One more text stands in front, with a comma behind it. -/
theorem separated_cons (text next : List Char) (texts : List (List Char)) (close : List Char) :
    separated (text :: next :: texts) close = text ++ ',' :: separated (next :: texts) close := by
  unfold separated
  rw [List.intercalate_cons_cons, List.append_assoc, List.append_assoc]
  rfl

theorem separated_singleton (text close : List Char) : separated [text] close = text ++ close := by
  unfold separated
  rw [List.intercalate_singleton]

/-- A comma ends a number. -/
theorem ends_comma (rest : List Char) : Ends (',' :: rest) := .cons (by decide) rest

/-- An item is followed by the next one, or by the bracket that closes. -/
theorem items?_step {fuel : Nat} {cs left : List Char} {item : Source}
    (h : value? fuel depth cs = some (item, left)) : (∀ rest, skipBlank left = ',' :: rest →
      items? (fuel + 1) depth cs = (items? fuel depth rest).map fun found =>
      (item :: found.1, found.2)) ∧
    ∀ rest, skipBlank left = ']' :: rest → items? (fuel + 1) depth cs = some ([item], rest) := by
  refine ⟨fun rest hleft => ?_, fun rest hleft => ?_⟩
  · rw [items?, h, Option.bind_eq_bind, Option.bind_some]
    dsimp only
    rw [hleft]
    show (items? fuel depth rest).bind _ = _
    cases items? fuel depth rest <;> rfl
  · rw [items?, h, Option.bind_eq_bind, Option.bind_some]
    dsimp only
    rw [hleft]
    rfl

/-- A member is followed by the next one, or by the brace that closes. -/
theorem members?_step {fuel : Nat} {cs body left : List Char} {key : String} {value : Source}
    (hstart : skipBlank cs = '"' :: (escaped key ++ '"' :: ':' :: body))
    (h : value? fuel depth body = some (value, left)) :
    (∀ rest, skipBlank left = ',' :: rest →
      members? (fuel + 1) depth cs = (members? fuel depth rest).map fun found =>
        (found.1.map ((key, value) :: ·), found.2)) ∧
    ∀ rest, skipBlank left = '\x7d' :: rest →
      members? (fuel + 1) depth cs = some (some [(key, value)], rest) := by
  refine ⟨fun rest hleft => ?_, fun rest hleft => ?_⟩
  · rw [members?, hstart]
    show (string? (escaped key ++ '"' :: ':' :: body)).bind _ = _
    rw [string?_escaped, Option.bind_some]
    show (value? fuel depth body).bind _ = _
    rw [h, Option.bind_some]
    dsimp only
    rw [hleft]
    show (members? fuel depth rest).bind _ = _
    cases members? fuel depth rest with
    | none => rfl
    | some found =>
      obtain ⟨members, remaining⟩ := found
      cases members <;> rfl
  · rw [members?, hstart]
    show (string? (escaped key ++ '"' :: ':' :: body)).bind _ = _
    rw [string?_escaped, Option.bind_some]
    show (value? fuel depth body).bind _ = _
    rw [h, Option.bind_some]
    dsimp only
    rw [hleft]
    rfl

section Close

variable {gap : List Char} (hgap : ∀ c ∈ gap, isJsonBlank c = true)
include hgap

/-- Texts of items with commas between them are read item by item. -/
theorem items?_separated {text : List Char} {item : Source} {texts : List (List Char)}
    {items : List Source}
    (h : List.Forall₂ (Spells depth) (text :: texts) (item :: items)) {fuel : Nat}
    (hfuel : 2 * (separated (text :: texts) gap).length + 3 < fuel) (rest : List Char) :
    items? fuel depth (separated (text :: texts) gap ++ ']' :: rest) =
      some (item :: items, rest) := by
  induction texts generalizing text item items fuel with
  | nil =>
    obtain ⟨hitem, hnil⟩ := List.forall₂_cons.mp h
    cases hnil
    obtain ⟨k, rfl⟩ : ∃ k, fuel = k + 1 := ⟨fuel - 1, by omega⟩
    rw [separated_singleton, List.length_append] at hfuel
    rw [separated_singleton, List.append_assoc]
    obtain ⟨left, hread, hleft⟩ :=
      hitem k (gap ++ ']' :: rest) (by omega) (ends_gap hgap (by decide) rest)
    refine (items?_step hread).2 rest ?_
    rw [hleft, skipBlank_gap hgap]
    rfl
  | cons next texts ih =>
    obtain ⟨hitem, hrest⟩ := List.forall₂_cons.mp h
    obtain ⟨k, rfl⟩ : ∃ k, fuel = k + 1 := ⟨fuel - 1, by omega⟩
    cases hrest with
    | @cons _ following _ followings hnext hrest =>
      rw [separated_cons, List.length_append, List.length_cons] at hfuel
      rw [separated_cons, List.append_assoc, List.cons_append]
      obtain ⟨left, hread, hleft⟩ :=
        hitem k (',' :: (separated (next :: texts) gap ++ ']' :: rest)) (by omega)
        (ends_comma _)
      rw [(items?_step hread).1 (separated (next :: texts) gap ++ ']' :: rest) hleft,
        ih (.cons hnext hrest) (by omega)]
      rfl

/-- Texts of members with commas between them are read member by member. -/
theorem members?_separated {text : List Char} {member : String × Source} {texts : List (List Char)}
    {members : List (String × Source)}
    (h : List.Forall₂ (SpellsMember depth) (text :: texts) (member :: members)) {fuel : Nat}
    (hfuel : 2 * (separated (text :: texts) gap).length + 3 < fuel) (rest : List Char) :
    members? fuel depth (separated (text :: texts) gap ++ '\x7d' :: rest) =
      some (some (member :: members), rest) := by
  have hstart (blanks : List Char) (hblanks : ∀ c ∈ blanks, isJsonBlank c = true) (key : String)
      (text rest : List Char) :
      skipBlank (blanks ++ '"' :: (escaped key ++ '"' :: ':' :: text) ++ rest) =
        '"' :: (escaped key ++ '"' :: ':' :: (text ++ rest)) := by
    rw [List.append_assoc, skipBlank_gap hblanks, List.cons_append, List.append_assoc]
    rfl
  induction texts generalizing text member members fuel with
  | nil =>
    obtain ⟨hmember, hnil⟩ := List.forall₂_cons.mp h
    cases hnil
    obtain ⟨k, rfl⟩ : ∃ k, fuel = k + 1 := ⟨fuel - 1, by omega⟩
    rw [separated_singleton, List.length_append] at hfuel
    rw [separated_singleton, List.append_assoc]
    obtain ⟨blanks, hblanks, key, hvalue⟩ := hmember
    simp only [List.length_append, List.length_cons] at hfuel
    obtain ⟨left, hread, hleft⟩ :=
      hvalue k (gap ++ '\x7d' :: rest) (by omega) (ends_gap hgap (by decide) rest)
    refine (members?_step (hstart blanks hblanks key _ _) hread).2 rest ?_
    rw [hleft, skipBlank_gap hgap]
    rfl
  | cons next texts ih =>
    obtain ⟨hmember, hrest⟩ := List.forall₂_cons.mp h
    obtain ⟨k, rfl⟩ : ∃ k, fuel = k + 1 := ⟨fuel - 1, by omega⟩
    cases hrest with
    | @cons _ following _ followings hnext hrest =>
      rw [separated_cons, List.length_append, List.length_cons] at hfuel
      rw [separated_cons, List.append_assoc, List.cons_append]
      obtain ⟨blanks, hblanks, key, hvalue⟩ := hmember
      simp only [List.length_append, List.length_cons] at hfuel
      obtain ⟨left, hread, hleft⟩ :=
        hvalue k (',' :: (separated (next :: texts) gap ++ '\x7d' :: rest)) (by omega)
        (ends_comma _)
      rw [(members?_step (hstart blanks hblanks key _ _) hread).1 _ hleft,
        ih (.cons hnext hrest) (by omega)]
      rfl

/-- The texts of items between brackets are read as an array. -/
theorem spells_array (hdepth : depth < depthLimit) {texts : List (List Char)} {items : List Source}
    (h : List.Forall₂ (Spells (depth + 1)) texts items) :
    Spells depth ('[' :: (separated texts gap ++ [']'])) (.array items) := by
  have hshallow : ifShallow (depth + 1) (.array items) = .array items := if_pos hdepth
  intro fuel rest hfuel hrest
  obtain ⟨k, rfl⟩ : ∃ k, fuel = k + 1 := ⟨fuel - 1, by omega⟩
  refine ⟨rest, ?_, rfl⟩
  rw [List.cons_append, List.append_assoc]
  cases h with
  | nil =>
    -- nothing but blanks stands between the brackets
    have hclose : skipBlank (separated [] gap ++ ([']'] ++ rest)) = ']' :: rest := by
      show skipBlank (gap ++ ']' :: rest) = _
      rw [skipBlank_gap hgap]
      rfl
    have hbracket : skipBlank ('[' :: (separated [] gap ++ ([']'] ++ rest))) =
        '[' :: (separated [] gap ++ ([']'] ++ rest)) := rfl
    simp only [value?, hbracket, hclose, hshallow]
  | @cons text item texts items hitem hitems =>
    -- an item does not start with the closing bracket
    have hopen : ∀ left, skipBlank (separated (text :: texts) gap ++ ([']'] ++ rest)) ≠
        ']' :: left := by
      cases texts with
      | nil =>
        rw [separated_singleton, List.append_assoc]
        exact hitem.not_close (ends_gap hgap (by decide) rest)
      | cons next texts =>
        rw [separated_cons, List.append_assoc]
        exact hitem.not_close (ends_comma _)
    have hfuel : 2 * (separated (text :: texts) gap).length + 3 < k := by
      simp only [List.length_cons, List.length_append, List.length_nil] at hfuel
      omega
    have hread := items?_separated hgap (.cons hitem hitems) hfuel rest
    have hbracket : skipBlank ('[' :: (separated (text :: texts) gap ++ ([']'] ++ rest))) =
        '[' :: (separated (text :: texts) gap ++ ([']'] ++ rest)) := rfl
    simp only [value?, hbracket]
    rw [show [']'] ++ rest = ']' :: rest from rfl, hread]
    exact congrArg (fun source => some (source, rest)) hshallow

/-- The texts of members between braces are read as an object. -/
theorem spells_object (hdepth : depth < depthLimit) {texts : List (List Char)}
    {members : List (String × Source)} (h : List.Forall₂ (SpellsMember (depth + 1)) texts members) :
    Spells depth ('\x7b' :: (separated texts gap ++ ['\x7d'])) (.object members) := by
  have hshallow : ifShallow (depth + 1) (.object members) = .object members := if_pos hdepth
  intro fuel rest hfuel hrest
  obtain ⟨k, rfl⟩ : ∃ k, fuel = k + 1 := ⟨fuel - 1, by omega⟩
  refine ⟨rest, ?_, rfl⟩
  rw [List.cons_append, List.append_assoc]
  cases h with
  | nil =>
    have hclose : skipBlank (separated [] gap ++ (['\x7d'] ++ rest)) = '\x7d' :: rest := by
      show skipBlank (gap ++ '\x7d' :: rest) = _
      rw [skipBlank_gap hgap]
      rfl
    have hbrace : skipBlank ('\x7b' :: (separated [] gap ++ (['\x7d'] ++ rest))) =
        '\x7b' :: (separated [] gap ++ (['\x7d'] ++ rest)) := rfl
    simp only [value?, hbrace, hclose, hshallow]
  | @cons text member texts members hmember hmembers =>
    -- every member starts with its quoted key, blanks aside
    have hopen : ∀ left, skipBlank (separated (text :: texts) gap ++ (['\x7d'] ++ rest)) ≠
        '\x7d' :: left := by
      intro left hclose
      have hquote : ∃ following, skipBlank (separated (text :: texts) gap ++ (['\x7d'] ++ rest)) =
          '"' :: following := by
        obtain ⟨blanks, hblanks, key, -⟩ := hmember
        cases texts with
        | nil =>
          rw [separated_singleton, List.append_assoc, List.append_assoc, skipBlank_gap hblanks]
          exact ⟨_, rfl⟩
        | cons next texts =>
          rw [separated_cons, List.append_assoc, List.append_assoc, skipBlank_gap hblanks]
          exact ⟨_, rfl⟩
      obtain ⟨following, hquote⟩ := hquote
      exact absurd (List.cons.inj (hquote.symm.trans hclose)).1 (by decide)
    have hfuel : 2 * (separated (text :: texts) gap).length + 3 < k := by
      simp only [List.length_cons, List.length_append, List.length_nil] at hfuel
      omega
    have hread := members?_separated hgap (.cons hmember hmembers) hfuel rest
    have hbrace : skipBlank ('\x7b' :: (separated (text :: texts) gap ++ (['\x7d'] ++ rest))) =
        '\x7b' :: (separated (text :: texts) gap ++ (['\x7d'] ++ rest)) := rfl
    simp only [value?, hbrace]
    rw [show ['\x7d'] ++ rest = '\x7d' :: rest from rfl, hread]
    exact congrArg (fun source => some (source, rest)) hshallow

end Close

/-! ### Texts of data -/

/-- The numbers have texts of their own: integers fit 64 bits, and what is written of a
double is read to be it. -/
inductive Legible : Json → Prop
  | null : Legible .null
  | bool (b : Bool) : Legible (.bool b)
  | int {i : Int} : -2 ^ 63 ≤ i → i < 2 ^ 64 → Legible (.int i)
  | float {n : Number} : read? (floatText n) = some (.float n) → Legible (.float n)
  | string (s : String) : Legible (.string s)
  | array {items : List Json} : (∀ item ∈ items, Legible item) → Legible (.array items)
  | object {members : List (String × Json)} : (∀ member ∈ members, Legible member.2) →
      Legible (.object members)

/-- Whether what is written of a double is read to be it. -/
def readsBack (n : Number) : Bool :=
  match read? (floatText n) with
  | some (.float m) => decide (m = n)
  | _ => false

mutual
/-- A test of legibility. -/
def isLegible : Json → Bool
  | .int i => decide (-2 ^ 63 ≤ i ∧ i < 2 ^ 64)
  | .float n => readsBack n
  | .array items => legibleItems items
  | .object members => legibleMembers members
  | _ => true

def legibleItems : List Json → Bool
  | [] => true
  | item :: rest => isLegible item && legibleItems rest

def legibleMembers : List (String × Json) → Bool
  | [] => true
  | (_, value) :: rest => isLegible value && legibleMembers rest
end

/-- The text of a number that is read back is read as the number. -/
theorem read?_of_readsBack {n : Number} (h : readsBack n = true) :
    read? (floatText n) = some (.float n) := by
  unfold readsBack at h
  split at h
  next m hread => rw [hread, of_decide_eq_true h]
  next => exact nomatch h

mutual
/-- What passes the test is legible. -/
theorem legible_of_test (json : Json) (h : json.isLegible = true) : json.Legible := by
  cases json with
  | null => exact .null
  | bool b => exact .bool b
  | int i =>
    obtain ⟨hlow, hhigh⟩ := of_decide_eq_true h
    exact .int hlow hhigh
  | float n => exact .float (read?_of_readsBack h)
  | string s => exact .string s
  | array items => exact .array (legible_items items h)
  | object members => exact .object (legible_members members h)

/-- Items that can be read are so one by one. -/
theorem legible_items (items : List Json) (h : legibleItems items = true) :
    ∀ item ∈ items, item.Legible := by
  cases items with
  | nil => exact List.forall_mem_nil _
  | cons item rest =>
    obtain ⟨hitem, hrest⟩ := Bool.and_eq_true_iff.mp h
    exact List.forall_mem_cons.mpr ⟨legible_of_test item hitem, legible_items rest hrest⟩

/-- Members that can be read are so one by one. -/
theorem legible_members (members : List (String × Json)) (h : legibleMembers members = true) :
    ∀ member ∈ members, member.2.Legible := by
  cases members with
  | nil => exact List.forall_mem_nil _
  | cons member rest =>
    obtain ⟨key, value⟩ := member
    obtain ⟨hvalue, hrest⟩ := Bool.and_eq_true_iff.mp h
    exact List.forall_mem_cons.mpr ⟨legible_of_test value hvalue, legible_members rest hrest⟩
end

section Texts

variable {gap : String} (hgap : ∀ c ∈ gap.toList, isJsonBlank c = true)
include hgap

/-- An array that was written is read. -/
theorem spells_arrayText (hdepth : depth < depthLimit) {texts : List String} {items : List Source}
    (h : List.Forall₂ (Spells (depth + 1)) (texts.map String.toList) items) :
    Spells depth ("[" ++ ",".intercalate texts ++ gap ++ "]").toList (.array items) := by
  have htext : ("[" ++ ",".intercalate texts ++ gap ++ "]").toList =
      '[' :: (separated (texts.map String.toList) gap.toList ++ [']']) := by
    simp only [String.toList_append, String.toList_intercalate]
    rfl
  rw [htext]
  exact spells_array hgap hdepth h

/-- An object that was written is read. -/
theorem spells_objectText (hdepth : depth < depthLimit) {texts : List String}
    {members : List (String × Source)}
    (h : List.Forall₂ (SpellsMember (depth + 1)) (texts.map String.toList) members) :
    Spells depth ("\x7b" ++ ",".intercalate texts ++ gap ++ "\x7d").toList (.object members) := by
  have htext : ("\x7b" ++ ",".intercalate texts ++ gap ++ "\x7d").toList =
      '\x7b' :: (separated (texts.map String.toList) gap.toList ++ ['\x7d']) := by
    simp only [String.toList_append, String.toList_intercalate]
    rfl
  rw [htext]
  exact spells_object hgap hdepth h

/-- A member is a gap, its key as a quoted text, a colon and its value. -/
theorem spellsMember_text (key : String) {blanks text : String} {source : Source}
    (hblanks : ∀ c ∈ blanks.toList, isJsonBlank c = true) (h : Spells depth text.toList source) :
    SpellsMember depth (gap ++ stringText key ++ ":" ++ blanks ++ text).toList (key, source) := by
  have htext : (gap ++ stringText key ++ ":" ++ blanks ++ text).toList =
      gap.toList ++ '"' :: (escaped key ++ '"' :: ':' :: (blanks.toList ++ text.toList)) := by
    simp only [String.toList_append, toList_stringText, List.append_assoc,
      List.cons_append, List.nil_append]
    rfl
  rw [htext]
  exact .mk gap.toList hgap key (h.after_gap hblanks)

end Texts

theorem blank_empty : ∀ c ∈ "".toList, isJsonBlank c = true := by simp

theorem blank_space : ∀ c ∈ " ".toList, isJsonBlank c = true := List.forall_mem_singleton.mpr rfl

/-- A new line and its indentation are blanks. -/
theorem blank_newline (level : Nat) : ∀ c ∈ (newline level).toList, isJsonBlank c = true := by
  have hspaces (count : Nat) : ∀ c ∈ ("".pushn ' ' count).toList, isJsonBlank c = true := by
    induction count with
    | zero => exact blank_empty
    | succ count ih =>
      rw [show "".pushn ' ' (count + 1) = ("".pushn ' ' count).push ' ' from
        rfl, String.toList_push]
      exact List.forall_mem_append.mpr ⟨ih, blank_space⟩
  have hbreak : ∀ c ∈ "\n".toList, isJsonBlank c = true := List.forall_mem_singleton.mpr rfl
  unfold newline
  rw [String.toList_append]
  exact List.forall_mem_append.mpr ⟨hbreak, hspaces _⟩

mutual
/-- Text without blanks is read as what it was written from. -/
theorem spells_compact (json : Json) (h : json.Legible) (depth : Nat)
    (hdepth : depth + json.depth ≤ depthLimit) :
    Spells depth json.compact.toList json.toSource := by
  cases json with
  | null => exact spells_null
  | bool b => exact spells_bool b
  | int i =>
    cases h with
    | int hlow hhigh => exact spells_int hlow hhigh
  | float n =>
    cases h with
    | float hread => exact spells_float hread
  | string s => exact spells_string s
  | array items =>
    cases h with
    | array hitems =>
      rw [Json.depth] at hdepth
      rw [compact, toSource, ← String.append_empty (s := "[" ++ _)]
      exact spells_arrayText blank_empty (by omega)
        (spells_compactItems items hitems (depth + 1) (by omega))
  | object members =>
    cases h with
    | object hmembers =>
      rw [Json.depth] at hdepth
      rw [compact, toSource, ← String.append_empty (s := "\x7b" ++ _)]
      exact spells_objectText blank_empty (by omega)
        (spells_compactMembers members hmembers (depth + 1) (by omega))

/-- Items written on one line are read. -/
theorem spells_compactItems (items : List Json) (h : ∀ item ∈ items, item.Legible) (depth : Nat)
    (hdepth : depth + depthItems items ≤ depthLimit) :
    List.Forall₂ (Spells depth) ((compactItems items).map String.toList) (toSources items) := by
  cases items with
  | nil => exact .nil
  | cons item rest =>
    rw [depthItems] at hdepth
    obtain ⟨hitem, hrest⟩ := List.forall_mem_cons.mp h
    rw [compactItems, toSources]
    exact .cons (spells_compact item hitem depth (by omega))
      (spells_compactItems rest hrest depth (by omega))

/-- Members written on one line are read. -/
theorem spells_compactMembers (members : List (String × Json))
    (h : ∀ member ∈ members, member.2.Legible) (depth : Nat)
    (hdepth : depth + depthMembers members ≤ depthLimit) :
    List.Forall₂ (SpellsMember depth) ((compactMembers members).map String.toList)
      (toMembers members) := by
  cases members with
  | nil => exact .nil
  | cons member rest =>
    obtain ⟨key, value⟩ := member
    rw [depthMembers] at hdepth
    obtain ⟨hvalue, hrest⟩ := List.forall_mem_cons.mp h
    have hmember :=
      spellsMember_text blank_empty key blank_empty (spells_compact value hvalue depth (by omega))
    rw [String.empty_append, String.append_empty] at hmember
    rw [compactMembers, toMembers]
    exact .cons hmember (spells_compactMembers rest hrest depth (by omega))
end

mutual
/-- Text on several lines is read as what it was written from. -/
theorem spells_prettyAt (json : Json) (h : json.Legible) (level depth : Nat)
    (hdepth : depth + json.depth ≤ depthLimit) :
    Spells depth (json.prettyAt level).toList json.toSource := by
  cases json with
  | null => exact spells_null
  | bool b => exact spells_bool b
  | int i =>
    cases h with
    | int hlow hhigh => exact spells_int hlow hhigh
  | float n =>
    cases h with
    | float hread => exact spells_float hread
  | string s => exact spells_string s
  | array items =>
    cases h with
    | array hitems =>
      rw [Json.depth] at hdepth
      have hread := spells_prettyItems items hitems (level + 1) (depth + 1) (by omega)
      cases items with
      | nil =>
        have htext : (Json.array []).prettyAt level = "[" ++ ",".intercalate [] ++ "" ++ "]" := rfl
        rw [htext]
        exact spells_arrayText blank_empty (by omega) .nil
      | cons item rest => exact spells_arrayText (blank_newline level) (by omega) hread
  | object members =>
    cases h with
    | object hmembers =>
      rw [Json.depth] at hdepth
      have hread := spells_prettyMembers members hmembers (level + 1) (depth + 1) (by omega)
      cases members with
      | nil =>
        have htext : (Json.object []).prettyAt level =
            "\x7b" ++ ",".intercalate [] ++ "" ++ "\x7d" := rfl
        rw [htext]
        exact spells_objectText blank_empty (by omega) .nil
      | cons member rest => exact spells_objectText (blank_newline level) (by omega) hread

/-- Items written on lines of their own are read. -/
theorem spells_prettyItems (items : List Json)
    (h : ∀ item ∈ items, item.Legible) (level depth : Nat)
    (hdepth : depth + depthItems items ≤ depthLimit) :
    List.Forall₂ (Spells depth) ((prettyItems level items).map String.toList)
      (toSources items) := by
  cases items with
  | nil => exact .nil
  | cons item rest =>
    rw [depthItems] at hdepth
    obtain ⟨hitem, hrest⟩ := List.forall_mem_cons.mp h
    have hread :=
      (spells_prettyAt item hitem level depth (by omega)).after_gap (blank_newline level)
    rw [← String.toList_append] at hread
    rw [prettyItems, toSources]
    exact .cons hread (spells_prettyItems rest hrest level depth (by omega))

/-- Members written on lines of their own are read. -/
theorem spells_prettyMembers (members : List (String × Json))
    (h : ∀ member ∈ members, member.2.Legible)
    (level depth : Nat) (hdepth : depth + depthMembers members ≤ depthLimit) :
    List.Forall₂ (SpellsMember depth) ((prettyMembers level members).map String.toList)
      (toMembers members) := by
  cases members with
  | nil => exact .nil
  | cons member rest =>
    obtain ⟨key, value⟩ := member
    rw [depthMembers] at hdepth
    obtain ⟨hvalue, hrest⟩ := List.forall_mem_cons.mp h
    have hmember := spellsMember_text (blank_newline level) key blank_space
      (spells_prettyAt value hvalue level depth (by omega))
    have htext : newline level ++ stringText key ++ ":" ++ " " ++ value.prettyAt level =
        newline level ++ stringText key ++ ": " ++ value.prettyAt level := by
      rw [show ": " = ":" ++ " " from rfl]
      simp only [String.append_assoc]
    rw [htext] at hmember
    rw [prettyMembers, toMembers]
    exact .cons hmember (spells_prettyMembers rest hrest level depth (by omega))
end

/-- A text that spells a source, with nothing behind it, is read as the source. -/
theorem read?_of_spells {text : String} {source : Source} (h : Spells 0 text.toList source) :
    read? text = some source := by
  obtain ⟨left, hread, hleft⟩ := h (2 * text.toList.length + 2) [] (by omega) .nil
  rw [List.append_nil] at hread
  unfold read?
  dsimp only
  rw [hread]
  dsimp only
  rw [hleft]
  rfl

/-- Compact text says what it was written from. -/
theorem read?_compact {json : Json} (h : json.Legible) (hdepth : json.depth ≤ depthLimit) :
    read? json.compact = some json.toSource :=
  read?_of_spells (spells_compact json h 0 (by omega))

/-- Text on several lines says what it was written from. -/
theorem read?_pretty {json : Json} (h : json.Legible) (hdepth : json.depth ≤ depthLimit) :
    read? json.pretty = some json.toSource :=
  read?_of_spells (spells_prettyAt json h 0 0 (by omega))

end Conform.Json
