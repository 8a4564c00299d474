import Mathlib.Data.List.DropRight
import Mathlib.Data.List.TakeWhile
import Conform.Text.Blank

/-!
# White space at the ends of texts

A trimmed text begins and ends with a character that is not white space, unless nothing is left of
it, and a text of which that is true already is not changed by trimming.

Trimming drops what is white space from the front, turns the text round, does so again and turns it
back. So what is true of the front after dropping (`not_blankAhead_dropWhile`) is true of both ends,
provided that dropping at the one end does not make the other one white again; a prefix of a text
begins as the text does, unless it is empty (`BlankAhead.of_prefix`).

That a text is not changed by trimming is then a matter of its two ends (`trimBlank_eq_self_iff`).
The characters of numbers, names and the printed characters of ASCII are no white space, which is
looked up in the table of those that are.
-/

namespace Conform.Text

/-- The ASCII characters that are printed are no white space. -/
theorem isBlank_of_printed {c : Char} (hlow : 0x20 < c.toNat) (hhigh : c.toNat < 0x7f) :
    isBlank c = false := by
  have htable : ∀ n < 0x7f, 0x20 < n → isBlank (Char.ofNat n) = false := by decide +kernel
  have hc := htable c.toNat hhigh hlow
  rw [Char.ofNat_toNat] at hc
  exact hc

theorem isBlank_of_isAlpha {c : Char} (h : c.isAlpha = true) : isBlank c = false := by
  unfold Char.isAlpha Char.isUpper Char.isLower at h
  simp only [Bool.or_eq_true, Bool.and_eq_true, decide_eq_true_eq] at h
  rcases h with ⟨hlow, hhigh⟩ | ⟨hlow, hhigh⟩
  · exact isBlank_of_printed (Nat.lt_of_lt_of_le (by decide) (UInt32.le_iff_toNat_le.mp hlow))
      (Nat.lt_of_le_of_lt (UInt32.le_iff_toNat_le.mp hhigh) (by decide))
  · exact isBlank_of_printed (Nat.lt_of_lt_of_le (by decide) (UInt32.le_iff_toNat_le.mp hlow))
      (Nat.lt_of_le_of_lt (UInt32.le_iff_toNat_le.mp hhigh) (by decide))

theorem isBlank_of_isDigit {c : Char} (h : c.isDigit = true) : isBlank c = false := by
  unfold Char.isDigit at h
  rw [Bool.and_eq_true, decide_eq_true_eq, decide_eq_true_eq] at h
  exact isBlank_of_printed (Nat.lt_of_lt_of_le (by decide) (UInt32.le_iff_toNat_le.mp h.1))
    (Nat.lt_of_le_of_lt (UInt32.le_iff_toNat_le.mp h.2) (by decide))

/-- The text begins with white space. -/
def BlankAhead (cs : List Char) : Prop := ∃ c ∈ cs.head?, isBlank c = true

/-- The text ends with white space. -/
def BlankBehind (cs : List Char) : Prop := ∃ c ∈ cs.getLast?, isBlank c = true

instance (cs : List Char) : Decidable (BlankBehind cs) :=
  decidable_of_iff (cs.getLast?.any isBlank = true) (Option.any_eq_true _ _)

theorem trimBlank_eq (cs : List Char) :
    trimBlank cs = (cs.dropWhile isBlank).rdropWhile isBlank := rfl

theorem BlankAhead.of_prefix {front cs : List Char} (hfront : front <+: cs) (h : BlankAhead front) :
    BlankAhead cs := by
  obtain ⟨rest, rfl⟩ := hfront
  obtain ⟨c, hc, hblank⟩ := h
  exact ⟨c, List.mem_head?_append_of_mem_head? hc, hblank⟩

theorem not_blankAhead_dropWhile (cs : List Char) : ¬ BlankAhead (cs.dropWhile isBlank) := by
  rintro ⟨c, hc, hblank⟩
  have hfirst := List.head?_dropWhile_not isBlank cs
  rw [Option.mem_def] at hc
  rw [hc] at hfirst
  exact Bool.false_ne_true (hfirst.symm.trans hblank)

/-- A trimmed text does not begin with white space. -/
theorem not_blankAhead_trimBlank (cs : List Char) : ¬ BlankAhead (trimBlank cs) := by
  intro h
  rw [trimBlank_eq] at h
  exact not_blankAhead_dropWhile cs (h.of_prefix (List.rdropWhile_prefix _ _))

/-- A trimmed text does not end with white space. -/
theorem not_blankBehind_trimBlank (cs : List Char) : ¬ BlankBehind (trimBlank cs) := by
  rintro ⟨c, hc, hblank⟩
  rw [trimBlank_eq] at hc
  obtain ⟨hne, rfl⟩ := List.mem_getLast?_eq_getLast hc
  exact List.rdropWhile_last_not _ _ hne hblank

/-- Trimming changes nothing just if neither end is white space. -/
theorem trimBlank_eq_self_iff (cs : List Char) :
    trimBlank cs = cs ↔ ¬ BlankAhead cs ∧ ¬ BlankBehind cs := by
  constructor
  · intro h
    rw [← h]
    exact ⟨not_blankAhead_trimBlank cs, not_blankBehind_trimBlank cs⟩
  · rintro ⟨hahead, hbehind⟩
    have hfront : cs.dropWhile isBlank = cs := by
      cases cs with
      | nil => rfl
      | cons c rest => exact List.dropWhile_cons_of_neg fun hblank => hahead ⟨c, rfl, hblank⟩
    rw [trimBlank_eq, hfront, List.rdropWhile_eq_self_iff]
    exact fun hne hblank => hbehind ⟨_, List.getLast?_eq_some_getLast hne, hblank⟩

theorem trimBlank_eq_nil_iff (cs : List Char) : trimBlank cs = [] ↔ ∀ c ∈ cs, isBlank c = true := by
  constructor
  · intro h
    rw [trimBlank_eq, List.rdropWhile_eq_nil_iff] at h
    -- the first character that was kept would not be white space
    have hnone : cs.dropWhile isBlank = [] := by
      by_contra hne
      obtain ⟨c, rest, hc⟩ := List.exists_cons_of_ne_nil hne
      refine not_blankAhead_dropWhile cs ⟨c, ?_, h c ?_⟩
      · rw [hc]
        rfl
      · rw [hc]
        exact List.mem_cons_self ..
    exact List.dropWhile_eq_nil_iff.mp hnone
  · intro h
    rw [trimBlank_eq, List.dropWhile_eq_nil_iff.mpr h]
    exact List.rdropWhile_nil _

/-- A text without any white space stays as it is. -/
theorem trim_of_forall {cs : List Char} (h : ∀ c ∈ cs, isBlank c = false) :
    trim (String.ofList cs) = String.ofList cs := by
  unfold trim
  rw [String.toList_ofList, (trimBlank_eq_self_iff cs).mpr]
  constructor
  · rintro ⟨c, hc, hblank⟩
    exact Bool.false_ne_true ((h c (List.mem_of_mem_head? hc)).symm.trans hblank)
  · rintro ⟨c, hc, hblank⟩
    exact Bool.false_ne_true ((h c (List.mem_of_mem_getLast? hc)).symm.trans hblank)

end Conform.Text
