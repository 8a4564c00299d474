import Conform.Number.Text
import Conform.Proofs.Doubles

/-!
# Numbers read back from their shortest decimals

The search for the shortest decimal of a double ends within seventeen digits, since a grid of so
many is finer than the interval of the rationals that round to the double (`rounds_shortest`).
Its text says what the decimal is worth (`textValue_text`), so two doubles with one text are the
same (`eq_of_plainText`).

A double stands for an interval of rationals, those that round to it, with the midpoints to its
neighbours for ends (`interval_spec`). The search goes through finer and finer decimal grids and
asks of each whether one of the two points next to the value lies inside (`onGrid?_holds`). On a
grid finer than the interval one of them does, and the one of seventeen digits is finer for every
double, since `2 ^ 53 < 10 ^ 16`. So the search ends on a decimal that rounds to the double.

Writing puts a point among the digits, and zeros before or behind them as needed. `Plain` says how a
text is laid out, and by it what the text is worth. The two steps together: a text determines a
decimal value, the value rounds to one double only (`eq_of_rounds`), and so the text determines the
double. This is needed where texts of numbers stand for numbers, as they do in the keys of sets.
-/

namespace Conform.Number

def Decimal.value (d : Decimal) : ℚ := d.digits * (10 : ℚ) ^ d.exponent

/-- A power with an integer exponent as a quotient of natural numbers. -/
theorem zpow_eq_div (base : ℚ) (p : Int) :
    base ^ p = base ^ p.toNat / base ^ (-p).toNat := by
  rcases Int.le_total 0 p with hp | hp
  · obtain ⟨k, rfl⟩ := Int.eq_ofNat_of_zero_le hp
    rw [Int.toNat_natCast, show (-(k : Int)).toNat = 0 by omega, pow_zero, div_one, zpow_natCast]
  · obtain ⟨k, hk⟩ := Int.eq_ofNat_of_zero_le (show 0 ≤ -p by omega)
    rw [show p = -(k : Int) by
      omega, Int.neg_neg, Int.toNat_natCast, show (-(k : Int)).toNat = 0 by omega,
      pow_zero, zpow_neg, zpow_natCast, one_div]

namespace Shortest

/-! ### The interval that rounds to a double -/

/-- Scaling multiplies by a power of two. -/
theorem scaled_div (num : Nat) {den : Nat} (hden : 0 < den) (shift : Int) :
    0 < (scaled num den shift).2 ∧
      ((scaled num den shift).1 : ℚ) / (scaled num den shift).2 = num / den * (2 : ℚ) ^ shift := by
  have hne : (den : ℚ) ≠ 0 := by positivity
  unfold scaled
  split
  next h =>
    refine ⟨hden, ?_⟩
    obtain ⟨k, rfl⟩ := Int.eq_ofNat_of_zero_le h
    dsimp only
    rw [Int.toNat_natCast, zpow_natCast, Nat.pow_eq]
    push_cast
    field_simp
  next h =>
    refine ⟨Nat.mul_pos hden (Nat.pow_pos (by decide)), ?_⟩
    obtain ⟨k, hk⟩ := Int.eq_ofNat_of_zero_le (show 0 ≤ -shift by omega)
    dsimp only
    rw [hk, Int.toNat_natCast, show shift = -(k : Int) by omega, zpow_neg, zpow_natCast, Nat.pow_eq]
    push_cast
    field_simp

/-- The interval of a double has the midpoints to its neighbours for ends. -/
theorem interval_spec {magnitude : Nat} (h : 0 < magnitude) {i : Interval}
    (hi : i = interval (significand magnitude) (lastPlace magnitude)) :
    0 < i.den ∧ (i.value : ℚ) / i.den = size magnitude ∧
    (i.low : ℚ) / i.den = midpoint (magnitude - 1) ∧
      (i.high : ℚ) / i.den = midpoint magnitude ∧ i.closed = (magnitude % 2 == 0) := by
  obtain ⟨hden, hunit⟩ := scaled_div 1 Nat.one_pos (lastPlace magnitude - 2)
  obtain ⟨unit, den, hscaled⟩ : ∃ unit den, scaled 1 1 (lastPlace magnitude - 2) =
      (unit, den) := ⟨_, _, rfl⟩
  rw [hscaled] at hden hunit
  have hunit : (unit : ℚ) / den = (2 : ℚ) ^ lastPlace magnitude / 4 := by
    -- the interval is laid out in quarters of the last place
    rw [hunit, zpow_sub₀ (by norm_num)]
    norm_num
  have hspec : i = ⟨(4 * significand magnitude -
        if significand magnitude = Nat.pow 2 52 ∧ -1074 < lastPlace magnitude then 1 else 2) * unit,
      4 * significand magnitude * unit, (4 * significand magnitude + 2) * unit, den,
      significand magnitude % 2 == 0⟩ := by
    rw [hi]
    unfold interval
    rw [hscaled]
  have hnext := size_succ magnitude
  -- the neighbour below may have a finer last place
  have hprevious : size magnitude = size (magnitude - 1) + (2 : ℚ) ^ lastPlace (magnitude - 1) := by
    have hstep := size_succ (magnitude - 1)
    rwa [Nat.sub_add_cancel h] at hstep
  have hsize : size magnitude = significand magnitude * (2 : ℚ) ^ lastPlace magnitude := rfl
  have hpos := significand_pos h
  rw [hspec]
  refine ⟨hden, ?_, ?_, ?_, by rw [significand_mod_two]⟩
  · dsimp only
    push_cast
    rw [mul_div_assoc, hunit, hsize]
    ring
  · dsimp only
    unfold midpoint
    rw [Nat.sub_add_cancel h]
    rw [lastPlace_pred h] at hprevious
    -- where a power of two begins, the midpoint below is half as far
    split at hprevious
    next hbegins =>
      rw [if_pos hbegins, Nat.cast_mul, Nat.cast_sub (by omega), mul_div_assoc, hunit]
      rw [zpow_sub_one₀ (by norm_num)] at hprevious
      push_cast
      linarith
    next hbegins =>
      rw [if_neg hbegins, Nat.cast_mul, Nat.cast_sub (by omega), mul_div_assoc, hunit]
      push_cast
      linarith
  · dsimp only
    unfold midpoint
    rw [Nat.cast_mul, mul_div_assoc, hunit]
    push_cast
    linarith

/-- Whether the interval holds a decimal, in rationals. -/
theorem holds_iff {i : Interval} (hden : 0 < i.den) (d : Nat) (p : Int) :
    i.holds d p = true ↔ if i.closed = true
      then (i.low : ℚ) / i.den ≤ d * (10 : ℚ) ^ p ∧ d * (10 : ℚ) ^ p ≤ (i.high : ℚ) / i.den
      else (i.low : ℚ) / i.den < d * (10 : ℚ) ^ p ∧ d * (10 : ℚ) ^ p < (i.high : ℚ) / i.den := by
  have hden' : (0 : ℚ) < i.den := by exact_mod_cast hden
  have hup : (0 : ℚ) < (10 : ℚ) ^ (-p).toNat := by positivity
  have hx : (d : ℚ) * (10 : ℚ) ^ p = d * (10 : ℚ) ^ p.toNat / (10 : ℚ) ^ (-p).toNat := by
    rw [zpow_eq_div 10, mul_div_assoc]
  unfold Interval.holds
  dsimp only
  rw [hx]
  cases i.closed with
  | true =>
    simp only [if_true, decide_eq_true_eq]
    rw [div_le_div_iff₀ hden' hup, div_le_div_iff₀ hup hden']
    norm_cast
  | false =>
    simp only [Bool.false_eq_true, if_false, decide_eq_true_eq]
    rw [div_lt_div_iff₀ hden' hup, div_lt_div_iff₀ hup hden']
    norm_cast

theorem onGrid?_holds {tie : Tie} {i : Interval} {p : Int} {d : Nat}
    (h : i.onGrid? tie p = some d) : i.holds d p = true := by
  unfold Interval.onGrid? at h
  dsimp only at h
  split at h
  next hbelow habove =>
    obtain rfl := Option.some.inj h
    split
    · exact habove
    · exact hbelow
  next hbelow _ =>
    obtain rfl := Option.some.inj h
    exact hbelow
  next _ habove =>
    obtain rfl := Option.some.inj h
    exact habove
  next => exact absurd h (by simp)

/-- On a grid finer than the interval, one of the two points next to the value lies inside. -/
theorem onGrid?_of_fine (tie : Tie) {i : Interval} (hden : 0 < i.den)
    (hlow : (i.low : ℚ) / i.den < i.value / i.den)
    (hhigh : (i.value : ℚ) / i.den < i.high / i.den) {p : Int}
    (hfine : (10 : ℚ) ^ p < (i.high : ℚ) / i.den - i.low / i.den) :
    ∃ d, i.onGrid? tie p = some d := by
  have hup : (0 : ℚ) < (10 : ℚ) ^ (-p).toNat := by positivity
  have hdown : (0 : ℚ) < (10 : ℚ) ^ p.toNat := by positivity
  have hden' : (0 : ℚ) < i.den := by exact_mod_cast hden
  have hp := zpow_eq_div 10 p
  -- the value lies between the two points
  obtain ⟨below, hbelow, hbetween⟩ : ∃ below : Nat,
      below = i.value * Nat.pow 10 (-p).toNat / (i.den * Nat.pow 10 p.toNat) ∧
        (below : ℚ) * (10 : ℚ) ^ p ≤ i.value / i.den ∧
        (i.value : ℚ) / i.den < (below + 1 : Nat) * (10 : ℚ) ^ p := by
    refine ⟨_, rfl, ?_, ?_⟩
    · have hle := Nat.div_mul_le_self (i.value * Nat.pow 10 (-p).toNat) (i.den * Nat.pow 10 p.toNat)
      generalize i.value * Nat.pow 10 (-p).toNat / (i.den * Nat.pow 10 p.toNat) = below at hle
      rw [hp, ← mul_div_assoc, div_le_div_iff₀ hup hden']
      have hle : (below : ℚ) * (i.den * (10 : ℚ) ^ p.toNat) ≤ i.value * (10 : ℚ) ^ (-p).toNat := by
        exact_mod_cast hle
      linarith
    · have hlt := Nat.lt_div_mul_add (a := i.value * Nat.pow 10 (-p).toNat)
        (Nat.mul_pos hden (show 0 < Nat.pow 10 p.toNat from Nat.pow_pos (by decide)))
      generalize i.value * Nat.pow 10 (-p).toNat / (i.den * Nat.pow 10 p.toNat) = below at hlt
      rw [hp, ← mul_div_assoc, div_lt_div_iff₀ hden' hup]
      have hlt : (i.value : ℚ) * (10 : ℚ) ^ (-p).toNat <
          below * (i.den * (10 : ℚ) ^ p.toNat) + i.den * (10 : ℚ) ^ p.toNat := by
        exact_mod_cast hlt
      push_cast
      linarith
  have hhits : i.holds below p = true ∨ i.holds (below + 1) p = true := by
    by_contra hnone
    rw [not_or, holds_iff hden, holds_iff hden] at hnone
    obtain ⟨hfirst, hsecond⟩ := hnone
    push_cast at hsecond hbetween
    have hlow' : (below : ℚ) * (10 : ℚ) ^ p ≤ (i.low : ℚ) / i.den := by
      by_contra hgt
      rw [not_le] at hgt
      refine hfirst ?_
      split
      · exact ⟨le_of_lt hgt, by linarith⟩
      · exact ⟨hgt, by linarith⟩
    have hhigh' : (i.high : ℚ) / i.den ≤ ((below : ℚ) + 1) * (10 : ℚ) ^ p := by
      by_contra hgt
      rw [not_le] at hgt
      refine hsecond ?_
      split
      · exact ⟨by linarith, le_of_lt hgt⟩
      · exact ⟨by linarith, hgt⟩
    linarith
  unfold Interval.onGrid?
  dsimp only
  rw [← hbelow]
  rcases hhits with hhit | hhit
  · rw [hhit]
    cases i.holds (below + 1) p <;> exact ⟨_, rfl⟩
  · rw [hhit]
    cases i.holds below p <;> exact ⟨_, rfl⟩

/-! ### The search -/

theorem value_strip (fuel digits : Nat) (exponent : Int) :
    (strip fuel digits exponent).value = digits * (10 : ℚ) ^ exponent := by
  induction fuel generalizing digits exponent with
  | zero => rfl
  | succ fuel ih =>
    unfold strip
    split
    next h =>
      have hdigits : digits = digits / 10 * 10 := by omega
      rw [ih, zpow_add_one₀ (by norm_num)]
      conv_rhs => rw [hdigits]
      push_cast
      ring
    next => rfl

/-- The search ends on a grid that is hit, the seventeenth at the latest. -/
theorem search_spec {tie : Tie} {i : Interval} {leading : Int}
    (hlast : ∃ d, i.onGrid? tie (leading - 16) = some d) {more count : Nat}
    (hsum : count + more = 18) (hmore : 0 < more) :
    ∃ d p, i.holds d p = true ∧ (search tie i leading count more).value = d * (10 : ℚ) ^ p := by
  induction more generalizing count with
  | zero => exact absurd hmore (Nat.lt_irrefl 0)
  | succ more ih =>
    unfold search
    dsimp only
    cases hgrid : i.onGrid? tie (leading - count + 1) with
    | some d => exact ⟨d, _, onGrid?_holds hgrid, value_strip ..⟩
    | none =>
      by_cases hend : more = 0
      · -- this was the seventeenth
        obtain ⟨d, hd⟩ := hlast
        have hcount : leading - (count : Int) + 1 = leading - 16 := by omega
        rw [hcount, hd] at hgrid
        exact absurd hgrid (by simp)
      · exact ih (by omega) (by omega)

theorem digitCount_spec {n : Nat} (h : 0 < n) :
    10 ^ (digitCount n - 1) ≤ n ∧ n < 10 ^ digitCount n ∧ 0 < digitCount n := by
  have hlength : digitCount n = (Nat.toDigits 10 n).length := by
    unfold digitCount
    rw [if_neg (by omega)]
  have hpos : 0 < digitCount n := hlength ▸ Nat.length_toDigits_pos
  refine ⟨?_, ?_, hpos⟩
  · by_cases hone : digitCount n = 1
    · rw [hone]
      exact h
    · have hle :=
        Nat.length_toDigits_le_iff (n := n) (b := 10) (k := digitCount n - 1) (by decide) (by omega)
      rw [← hlength] at hle
      exact Nat.le_of_not_lt fun hlt => absurd (hle.mpr hlt) (by omega)
  · exact (Nat.length_toDigits_le_iff (by decide) hpos).mp (le_of_eq hlength.symm)

/-- The leading place is not too high. -/
theorem leadingPlace_le {num den : Nat} (hnum : 0 < num) (hden : 0 < den) :
    (10 : ℚ) ^ leadingPlace num den ≤ num / den := by
  have hden' : (0 : ℚ) < den := by exact_mod_cast hden
  rw [le_div_iff₀ hden']
  unfold leadingPlace
  split
  next hle =>
    have hquotient : 0 < num / den := Nat.div_pos hle hden
    obtain ⟨hpow, -, hcount⟩ := digitCount_spec hquotient
    have hnat : 10 ^ (digitCount (num / den) - 1) * den ≤ num :=
      (Nat.mul_le_mul_right den hpow).trans (Nat.div_mul_le_self num den)
    rw [show ((digitCount (num / den) : Int) - 1) =
      ((digitCount (num / den) - 1 : Nat) : Int) by omega, zpow_natCast]
    exact_mod_cast hnat
  next hlt =>
    obtain ⟨hlow, -, hcount⟩ := digitCount_spec hnum
    obtain ⟨-, hhigh, -⟩ := digitCount_spec hden
    dsimp only
    -- the guess by the lengths is `10 ^ -shift`
    have hscaled {k : Nat} (h : den ≤ num * 10 ^ k) : (10 : ℚ) ^ (-(k : Int)) * den ≤ num := by
      have hpos : (0 : ℚ) < 10 ^ k := by positivity
      rw [zpow_neg, zpow_natCast, inv_mul_le_iff₀ hpos, mul_comm]
      exact_mod_cast h
    have hguess : den ≤ num * 10 ^ (digitCount den - digitCount num + 1) := by
      calc den ≤ 10 ^ digitCount den := le_of_lt hhigh
        _ ≤ 10 ^ (digitCount num - 1 + (digitCount den - digitCount num + 1)) :=
          Nat.pow_le_pow_right (by decide) (by omega)
        _ = 10 ^ (digitCount num - 1) * 10 ^ (digitCount den - digitCount num + 1) := Nat.pow_add ..
        _ ≤ num * 10 ^ (digitCount den - digitCount num + 1) := Nat.mul_le_mul_right _ hlow
    have hcounts : digitCount num ≤ digitCount den := by
      by_contra hmore
      have hpow : 10 ^ digitCount den ≤ 10 ^ (digitCount num - 1) :=
        Nat.pow_le_pow_right (by decide) (by omega)
      omega
    by_cases hneg : (digitCount num : Int) - digitCount den < 0
    · rw [if_pos hneg]
      dsimp only
      split
      next hfits =>
        have hshift : -((digitCount num : Int) - digitCount den) =
            ((digitCount den - digitCount num : Nat) : Int) := by omega
        rw [hshift, Int.toNat_natCast] at hfits
        rw [show (digitCount num : Int) - digitCount den =
          -((digitCount den - digitCount num : Nat) : Int) by omega]
        exact hscaled hfits
      next =>
        rw [show (digitCount num : Int) - digitCount den - 1 =
          -((digitCount den - digitCount num + 1 : Nat) : Int) by omega]
        exact hscaled hguess
    · rw [if_neg hneg]
      dsimp only
      rw [if_neg hlt, show (digitCount num : Int) - digitCount den - 1 =
        -((digitCount den - digitCount num + 1 : Nat) : Int) by omega]
      exact hscaled hguess

end Shortest

/-- The midpoints around a double are further apart than the `10 ^ 16`th part of it. -/
theorem size_div_lt_gap {magnitude : Nat} (h : 0 < magnitude) :
    size magnitude / 10 ^ 16 < midpoint magnitude - midpoint (magnitude - 1) := by
  have hprevious : size magnitude =
      size (magnitude - 1) + (2 : ℚ) ^ lastPlace (magnitude - 1) := by
    have hstep := size_succ (magnitude - 1)
    rwa [Nat.sub_add_cancel h] at hstep
  have hstep : (0 : ℚ) < (2 : ℚ) ^ lastPlace magnitude := by positivity
  have hsize : size magnitude = significand magnitude * (2 : ℚ) ^ lastPlace magnitude := rfl
  unfold midpoint
  rw [Nat.sub_add_cancel h, size_succ, hsize]
  rw [hsize, lastPlace_pred h] at hprevious
  split at hprevious
  next hbegins =>
    -- a binade begins: half the step below, and a significand of `2 ^ 52`
    rw [hbegins.1] at hprevious ⊢
    rw [zpow_sub_one₀ (by norm_num)] at hprevious
    norm_num at hprevious ⊢
    linarith
  next =>
    have hlt : (significand magnitude : ℚ) < 2 ^ 53 := by
      exact_mod_cast significand_lt magnitude
    have hbound : (significand magnitude : ℚ) * (2 : ℚ) ^ lastPlace magnitude <
        2 ^ 53 * (2 : ℚ) ^ lastPlace magnitude := mul_lt_mul_of_pos_right hlt hstep
    norm_num at hbound ⊢
    linarith

namespace Shortest

variable {magnitude : Nat} (hpos : 0 < magnitude) {i : Interval}
  (hi : i = interval (significand magnitude) (lastPlace magnitude))

include hpos hi

/-- The grid of the seventeenth digit is hit by the interval of every double. -/
theorem onGrid?_last (tie : Tie) :
    ∃ d, i.onGrid? tie (leadingPlace i.value i.den - 16) = some d := by
  obtain ⟨hden, hvalue, hlow, hhigh, -⟩ := interval_spec hpos hi
  have hnum : 0 < i.value := by
    have hsize : 0 < size magnitude := by
      rw [← size_zero]
      exact size_strictMono hpos
    rw [← hvalue] at hsize
    by_contra hzero
    rw [Nat.eq_zero_of_not_pos hzero, Nat.cast_zero, zero_div] at hsize
    exact lt_irrefl _ hsize
  have hfine : (10 : ℚ) ^ (leadingPlace i.value i.den - 16) ≤ size magnitude / 10 ^ 16 := by
    rw [zpow_sub₀ (by norm_num), ← hvalue]
    have hpow : (10 : ℚ) ^ (16 : Int) = 10 ^ 16 := by norm_num
    rw [hpow]
    exact div_le_div_of_nonneg_right (leadingPlace_le hnum hden) (by positivity)
  refine onGrid?_of_fine tie hden ?_ ?_ (lt_of_le_of_lt hfine ?_)
  · rw [hlow, hvalue]
    exact midpoint_lt_size hpos
  · rw [hhigh, hvalue]
    exact size_lt_midpoint magnitude
  · rw [hlow, hhigh]
    exact size_div_lt_gap hpos

/-- What the interval of a double holds rounds to the double. -/
theorem rounds_of_holds {d : Nat} {p : Int} (h : i.holds d p = true) :
    Rounds magnitude (d * (10 : ℚ) ^ p) := by
  obtain ⟨hden, -, hlow, hhigh, hclosed⟩ := interval_spec hpos hi
  rw [holds_iff hden, hlow, hhigh, hclosed] at h
  unfold Rounds
  by_cases heven : magnitude % 2 = 0
  · rw [if_pos heven]
    rwa [show (magnitude % 2 == 0) = true by simpa using heven, if_pos rfl] at h
  · rw [if_neg heven]
    rwa [show (magnitude % 2 == 0) = false by simpa using heven, if_neg Bool.false_ne_true] at h

end Shortest

/-- The shortest decimal of a double rounds to the double. -/
theorem rounds_shortest (tie : Tie) {n : Number} (hfinite : n.isFinite = true)
    (hpos : 0 < n.magnitude) : Rounds n.magnitude (n.shortest tie).value := by
  obtain ⟨i, hi⟩ : ∃ i, i = Shortest.interval (significand n.magnitude) (lastPlace n.magnitude) :=
    ⟨_, rfl⟩
  have hshortest : n.shortest tie =
      Shortest.search tie i (Shortest.leadingPlace i.value i.den) 1 17 := by
    unfold shortest
    rw [meaning_eq hfinite]
    show Shortest.ofMeaning tie (significand n.magnitude) (lastPlace n.magnitude) = _
    unfold Shortest.ofMeaning
    rw [if_neg (Nat.ne_of_gt (significand_pos hpos)), hi]
  have hlast := Shortest.onGrid?_last hpos hi tie
  obtain ⟨d, p, hholds, hresult⟩ :=
    Shortest.search_spec hlast (show 1 + 17 = 18 from rfl) (by decide)
  rw [hshortest, hresult]
  exact Shortest.rounds_of_holds hpos hi hholds

/-! ### Texts -/

/-- What a plain text of digits, perhaps with a point, is worth. -/
def textValue (text : List Char) : ℚ :=
  (Nat.ofDigitChars 10 (text.filter (· != '.')) 0 : ℚ) /
    10 ^ ((text.dropWhile (· != '.')).length - 1)

theorem ne_point_of_isDigit {c : Char} (h : c.isDigit = true) : (c != '.') = true := by
  refine bne_iff_ne.mpr fun hpoint => ?_
  rw [hpoint] at h
  exact absurd h (by decide)

section

variable {digits : List Char} (h : ∀ c ∈ digits, c.isDigit = true)

include h

theorem filter_digits : digits.filter (· != '.') = digits :=
  List.filter_eq_self.mpr fun c hc => ne_point_of_isDigit (h c hc)

theorem dropWhile_digits (rest : List Char) :
    (digits ++ rest).dropWhile (· != '.') = rest.dropWhile (· != '.') := by
  induction digits with
  | nil => rfl
  | cons c digits ih =>
    have hfirst : (c != '.') = true := ne_point_of_isDigit (h c (List.mem_cons_self ..))
    rw [List.cons_append, List.dropWhile_cons, if_pos hfirst]
    exact ih fun c hc => h c (List.mem_cons_of_mem _ hc)

end

theorem isDigit_replicate (count : Nat) : ∀ c ∈ List.replicate count '0', c.isDigit = true := by
  intro c hc
  rw [List.eq_of_mem_replicate hc]
  decide

theorem toList_pushn (count : Nat) : ("".pushn '0' count).toList = List.replicate count '0' := by
  induction count with
  | zero => rfl
  | succ count ih =>
    have hnext : "".pushn '0' (count + 1) = ("".pushn '0' count).push '0' := rfl
    rw [hnext, String.toList_push, ih, List.replicate_succ']

/-- The digits of a text in the plain layout and where the point stands among them. -/
inductive Plain (d : Nat) (places : Int) : List Char → Prop
  | before (h : places ≤ 0) :
      Plain d places ('0' :: '.' :: (List.replicate (-places).toNat '0' ++ Nat.toDigits 10 d))
  | behind (h : (Nat.toDigits 10 d).length ≤ places) :
      Plain d places
      (Nat.toDigits 10 d ++ List.replicate (places - (Nat.toDigits 10 d).length).toNat '0')
  | inside (h : 0 < places) (h' : places < (Nat.toDigits 10 d).length) :
      Plain d places
      ((Nat.toDigits 10 d).take places.toNat ++ '.' :: (Nat.toDigits 10 d).drop places.toNat)

theorem plain_positionalText (d : Nat) (places : Int) :
    Plain d places (positionalText false (toString d) places).toList := by
  have hlist : (toString d).toList = Nat.toDigits 10 d := Nat.toList_repr
  have hlength : (toString d).length = (Nat.toDigits 10 d).length := by
    rw [← String.length_toList, hlist]
  unfold positionalText
  dsimp only
  rw [hlength]
  split
  next h =>
    rw [String.toList_append, String.toList_append, toList_pushn, hlist]
    exact .before h
  next hpos =>
    split
    next h =>
      rw [String.toList_append, String.toList_append, toList_pushn, hlist]
      show Plain d places ((Nat.toDigits 10 d ++ _) ++ [])
      rw [List.append_nil]
      exact .behind h
    next hlt =>
      rw [String.toList_append, String.toList_append, hlist]
      simp only [String.toList_ofList, List.append_assoc]
      exact .inside (Int.not_le.mp hpos) (Int.not_le.mp hlt)

theorem isDigit_toDigits (d : Nat) : ∀ c ∈ Nat.toDigits 10 d, c.isDigit = true :=
  fun _ hc => Nat.isDigit_of_mem_toDigits (by decide) (by decide) hc

/-- The text is worth what its digits are, shifted to where the point stands. -/
theorem Plain.textValue {d : Nat} {places : Int} {text : List Char} (h : Plain d places text) :
    textValue text = d * (10 : ℚ) ^ (places - (Nat.toDigits 10 d).length) := by
  have hdigits := isDigit_toDigits d
  have hvalue : Nat.ofDigitChars 10 (Nat.toDigits 10 d) 0 = d := Nat.ofDigitChars_ten_toDigits
  unfold Number.textValue
  cases h with
  | before h =>
    -- the digits stand behind a point and noughts
    have hall : ∀ c ∈ List.replicate (-places).toNat '0' ++ Nat.toDigits 10 d,
        c.isDigit = true := by
      intro c hc
      exact (List.mem_append.mp hc).elim (isDigit_replicate _ c) (hdigits c)
    have hfilter : ('0' :: '.' :: (List.replicate (-places).toNat '0' ++ Nat.toDigits 10 d)).filter
        (· != '.') = '0' :: (List.replicate (-places).toNat '0' ++ Nat.toDigits 10 d) := by
      rw [List.filter_cons_of_pos (by decide),
        List.filter_cons_of_neg (by decide), filter_digits hall]
    have hdrop : ('0' :: '.' :: (List.replicate (-places).toNat '0' ++ Nat.toDigits 10 d)).dropWhile
        (· != '.') = '.' :: (List.replicate (-places).toNat '0' ++ Nat.toDigits 10 d) := rfl
    have hplaces : places - (Nat.toDigits 10 d).length =
        -(((-places).toNat + (Nat.toDigits 10 d).length : Nat) : Int) := by omega
    have hnumber : Nat.ofDigitChars 10
        ('0' :: (List.replicate (-places).toNat '0' ++ Nat.toDigits 10 d)) 0 = d := by
      rw [Nat.ofDigitChars_cons, Nat.ofDigitChars_append, Nat.ofDigitChars_replicate_zero]
      exact hvalue
    rw [hfilter, hdrop, hnumber, hplaces, zpow_neg, zpow_natCast,
      List.length_cons, List.length_append,
      List.length_replicate, Nat.add_sub_cancel, div_eq_mul_inv]
  | behind h =>
    -- the digits are followed by noughts
    have hall : ∀ c ∈ Nat.toDigits 10 d ++
        List.replicate (places - (Nat.toDigits 10 d).length).toNat '0',
        c.isDigit = true := by
      intro c hc
      exact (List.mem_append.mp hc).elim (hdigits c) (isDigit_replicate _ c)
    have hdrop := dropWhile_digits hall []
    rw [List.append_nil] at hdrop
    have hplaces : places - (Nat.toDigits 10 d).length =
        (((places - (Nat.toDigits 10 d).length).toNat : Nat) : Int) := by omega
    rw [filter_digits hall, hdrop, Nat.ofDigitChars_append, hvalue,
      Nat.ofDigitChars_replicate_zero, hplaces, zpow_natCast, Int.toNat_natCast]
    push_cast
    simp only [List.dropWhile_nil, List.length_nil]
    ring
  | inside h h' =>
    -- the point stands among the digits
    have htake : ∀ c ∈ (Nat.toDigits 10 d).take places.toNat, c.isDigit = true := fun c hc =>
      hdigits c (List.mem_of_mem_take hc)
    have hrest : ∀ c ∈ (Nat.toDigits 10 d).drop places.toNat, c.isDigit = true := fun c hc =>
      hdigits c (List.mem_of_mem_drop hc)
    have hfilter : ((Nat.toDigits 10 d).take places.toNat ++ '.' ::
        (Nat.toDigits 10 d).drop places.toNat).filter (· != '.') = Nat.toDigits 10 d := by
      rw [List.filter_append, List.filter_cons_of_neg (by decide), filter_digits htake,
        filter_digits hrest, List.take_append_drop]
    have hplaces : places - (Nat.toDigits 10 d).length =
        -(((Nat.toDigits 10 d).length - places.toNat : Nat) : Int) := by omega
    rw [hfilter, dropWhile_digits htake, hvalue,
      List.dropWhile_cons_of_neg (by decide), List.length_cons,
      Nat.add_sub_cancel, List.length_drop, hplaces, zpow_neg, zpow_natCast, div_eq_mul_inv]

/-- Plain texts are digits and points, a digit first. -/
theorem Plain.chars {d : Nat} {places : Int} {text : List Char} (h : Plain d places text) :
    (∀ c ∈ text, c.isDigit = true ∨ c = '.') ∧ ∃ c rest, text = c :: rest ∧ c.isDigit = true := by
  have hdigits := isDigit_toDigits d
  obtain ⟨first, others, hfirst⟩ : ∃ first others, Nat.toDigits 10 d = first :: others :=
    List.exists_cons_of_ne_nil Nat.toDigits_ne_nil
  have hdigit : first.isDigit = true := hdigits first (hfirst ▸ List.mem_cons_self ..)
  cases h with
  | before h =>
    refine ⟨fun c hc => ?_, '0', _, rfl, by decide⟩
    rcases List.mem_cons.mp hc with rfl | hc
    · exact .inl (by decide)
    · rcases List.mem_cons.mp hc with rfl | hc
      · exact .inr rfl
      · exact .inl ((List.mem_append.mp hc).elim (isDigit_replicate _ c) (hdigits c))
  | behind h =>
    refine ⟨fun c hc => .inl ((List.mem_append.mp hc).elim (hdigits c) (isDigit_replicate _ c)),
      first, ?_⟩
    rw [hfirst]
    exact ⟨_, rfl, hdigit⟩
  | inside h h' =>
    refine ⟨fun c hc => ?_, first, ?_⟩
    · rcases List.mem_append.mp hc with hc | hc
      · exact .inl (hdigits c (List.mem_of_mem_take hc))
      · rcases List.mem_cons.mp hc with rfl | hc
        · exact .inr rfl
        · exact .inl (hdigits c (List.mem_of_mem_drop hc))
    · obtain ⟨k, hk⟩ : ∃ k, places.toNat = k + 1 := ⟨places.toNat - 1, by omega⟩
      rw [hk, hfirst, List.take_succ_cons]
      exact ⟨_, rfl, hdigit⟩

/-- The text of a decimal is worth the decimal. -/
theorem plain_text {d : Decimal} (h : d.digits ≠ 0) :
    ∃ places, Plain d.digits places (d.text plainLayout).toList ∧
      textValue (d.text plainLayout).toList = d.value := by
  have hlength : (toString d.digits).length = (Nat.toDigits 10 d.digits).length := by
    rw [← String.length_toList]
    exact congrArg List.length Nat.toList_repr
  have htext : d.text plainLayout =
      positionalText false (toString d.digits) (d.exponent + (toString d.digits).length) := by
    unfold Decimal.text
    rw [if_neg h]
    rfl
  have hplain := plain_positionalText d.digits (d.exponent + (toString d.digits).length)
  rw [htext]
  refine ⟨_, hplain, ?_⟩
  rw [hplain.textValue, hlength, Int.add_sub_cancel]
  rfl

/-- What the plain text of a number that is not zero is: a sign and the digits of a decimal that
rounds to the number. -/
theorem plainText_finite {n : Number} (hfinite : n.isFinite = true) (hzero : n.isZero = false) :
    ∃ d places text, n.plainText = (if n.isNegative then "-" else "") ++ text ∧
      Plain d places text.toList ∧
      Rounds n.magnitude (textValue text.toList) := by
  have hmagnitude : n.magnitude < infinityMagnitude := of_decide_eq_true hfinite
  have hnan : n.isNaN = false := decide_eq_false (by omega)
  have hinfinite : n.isInfinite = false := decide_eq_false (by omega)
  have hpos : 0 < n.magnitude := Nat.pos_of_ne_zero (of_decide_eq_false hzero)
  have hrounds := rounds_shortest plainLayout.tie hfinite hpos
  have hdigits : (n.shortest plainLayout.tie).digits ≠ 0 := by
    intro hnone
    have hvalue := hrounds.pos
    unfold Decimal.value at hvalue
    rw [hnone, Nat.cast_zero, zero_mul] at hvalue
    exact lt_irrefl _ hvalue
  obtain ⟨places, hplain, hvalue⟩ := plain_text hdigits
  refine ⟨_, places, _, ?_, hplain, hvalue ▸ hrounds⟩
  unfold plainText
  rw [hnan, hinfinite, if_neg Bool.false_ne_true, if_neg Bool.false_ne_true]
  rfl

/-- The plain texts of numbers that are neither infinite nor zero tell them apart. -/
theorem eq_of_plainText {n m : Number} (hn : n.isFinite = true) (hn' : n.isZero = false)
    (hm : m.isFinite = true) (hm' : m.isZero = false) (h : n.plainText = m.plainText) : n = m := by
  obtain ⟨_, _, text, htext, hplain, hrounds⟩ := plainText_finite hn hn'
  obtain ⟨_, _, text', htext', hplain', hrounds'⟩ := plainText_finite hm hm'
  have hpos : 0 < n.magnitude := Nat.pos_of_ne_zero (of_decide_eq_false hn')
  have hpos' : 0 < m.magnitude := Nat.pos_of_ne_zero (of_decide_eq_false hm')
  rw [htext, htext'] at h
  have h := congrArg String.toList h
  rw [String.toList_append, String.toList_append] at h
  -- a text does not begin with the sign
  have hsign {text : List Char} {rest : List Char} {d : Nat} {places : Int}
      (hplain : Plain d places text) (h : text = '-' :: rest) : False := by
    obtain ⟨-, c, others, heq, hdigit⟩ := hplain.chars
    rw [h] at heq
    obtain ⟨rfl, -⟩ := List.cons.inj heq
    exact absurd hdigit (by decide)
  have hboth : n.isNegative = m.isNegative ∧ text.toList = text'.toList := by
    cases hneg : n.isNegative with
    | true =>
      rw [hneg] at h
      cases hneg' : m.isNegative with
      | true =>
        rw [hneg'] at h
        exact ⟨rfl, List.append_cancel_left h⟩
      | false =>
        rw [hneg'] at h
        exact (hsign hplain' h.symm).elim
    | false =>
      rw [hneg] at h
      cases hneg' : m.isNegative with
      | true =>
        rw [hneg'] at h
        exact (hsign hplain h).elim
      | false =>
        rw [hneg'] at h
        exact ⟨rfl, h⟩
  rw [hboth.2] at hrounds
  exact eq_of_magnitude hboth.1 (eq_of_rounds hpos hpos' hrounds hrounds')

end Conform.Number
