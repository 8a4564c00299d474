import Conform.Proofs.Doubles

/-!
# Integers among the doubles

Below `2 ^ 53` every integer is a double, and rounding it gives that double. What a double says as
an integer therefore says the double again, the sign of zero apart (`ofInt_of_toSafeInt?`).

The number of an integer is found by rounding, as that of any ratio is. Rounding first guesses
the exponent by the leading bit and then scales, so what has to be seen is that the guess is
right for an integer and that nothing is left over to be rounded (`roundHalfEven_one`,
`shifted_bounds`). What comes out is written down as a magnitude in closed form
(`wholeMagnitude`), and its size is the integer.

In the other direction a double is an integer if its exact value is one and is safe
(`toSafeInt?_spec`). Both ways together give that the double of the integer of a double
is the double, since doubles of one size and one sign are one. For zero the sign is
lost: the integer has none.

The powers of two in all this are exponents of a thousand and more. They are kept as variables where
they occur, lest the kernel write them out.
-/

namespace Conform.Number

/-! ### Doubles by sign and magnitude -/

theorem isNegative_ofMagnitude (negative : Bool) {magnitude : Nat} (h : magnitude < Nat.pow 2 63) :
    (ofMagnitude negative magnitude).isNegative = negative := by
  have hpow : (2 : Nat) ^ 64 = Nat.pow 2 63 + Nat.pow 2 63 := by decide
  unfold isNegative ofMagnitude
  dsimp only
  rw [UInt64.toNat_ofNat']
  cases negative with
  | false =>
    rw [if_neg Bool.false_ne_true, Nat.add_zero, Nat.mod_eq_of_lt (by omega)]
    exact decide_eq_false (Nat.not_le.mpr h)
  | true =>
    rw [if_pos rfl, Nat.mod_eq_of_lt (by omega)]
    exact decide_eq_true (Nat.le_add_left _ _)

theorem magnitude_ofMagnitude (negative : Bool) {magnitude : Nat} (h : magnitude < Nat.pow 2 63) :
    (ofMagnitude negative magnitude).magnitude = magnitude := by
  have hpow : (2 : Nat) ^ 64 = Nat.pow 2 63 + Nat.pow 2 63 := by decide
  unfold Number.magnitude ofMagnitude
  dsimp only
  rw [UInt64.toNat_ofNat']
  cases negative with
  | false =>
    have hlt : magnitude < 2 ^ 64 := by omega
    rw [if_neg Bool.false_ne_true, Nat.add_zero, Nat.mod_eq_of_lt hlt, Nat.mod_eq_of_lt h]
  | true =>
    have hlt : magnitude + Nat.pow 2 63 < 2 ^ 64 := by omega
    rw [if_pos rfl, Nat.mod_eq_of_lt hlt, Nat.add_mod_right, Nat.mod_eq_of_lt h]

/-! ### The double of an integer -/

theorem scaled_shift (num : Nat) (shift : Nat) : scaled num 1 shift = (num * 2 ^ shift, 1) := by
  unfold scaled
  rw [if_pos (Int.natCast_nonneg shift), Int.toNat_natCast]
  rfl

theorem roundHalfEven_one (n : Nat) : roundHalfEven n 1 = n := by
  unfold roundHalfEven
  rw [Nat.div_one, Nat.mod_one]
  exact if_neg (by omega)

/-- A ratio is rounded at the exponent that its leading bit says. The powers and the scaled ratio
stand for variables, lest they be counted out. -/
theorem rounded_eq (negative : Bool) (ratio : Int → Nat × Nat) (guess base : Int)
    (unit bound top : Nat) : (let (n, d) := ratio (-guess)
     let exponent := if n < d * bound then guess else guess + 1
     let (n, d) := ratio (-exponent)
     let magnitude := (exponent + base).toNat * unit + roundHalfEven n d
     ofMagnitude negative (min magnitude top)) =
      (let exponent := if (ratio (-guess)).1 < (ratio (-guess)).2 * bound then guess else guess + 1
       ofMagnitude negative (min ((exponent + base).toNat * unit +
         roundHalfEven (ratio (-exponent)).1 (ratio (-exponent)).2) top)) := rfl

theorem ofRatio_of_guess (negative : Bool) {num den : Nat}
    (hpos : ¬(num = 0 ∨ den = 0)) {guess : Int}
    (hguess : max ((num.log2 : Int) - den.log2 - 53) (-1074) = guess) :
    ofRatio negative num den =
      (let (n, d) := scaled num den (-guess)
       let exponent := if n < d * Nat.pow 2 53 then guess else guess + 1
       let (n, d) := scaled num den (-exponent)
       let magnitude := (exponent + 1074).toNat * Nat.pow 2 52 + roundHalfEven n d
       ofMagnitude negative (min magnitude infinityMagnitude)) := by
  unfold ofRatio
  rw [if_neg hpos, ← hguess]

/-- Shifted until its leading bit stands where significands begin, an integer
below `2 ^ 53` is one. -/
theorem shifted_bounds {k : Nat} (hpos : 0 < k) (hlt : k < 2 ^ 53) :
    Nat.pow 2 52 ≤ k * 2 ^ (52 - k.log2) ∧ k * 2 ^ (52 - k.log2) < 2 * Nat.pow 2 52 := by
  have hne : k ≠ 0 := Nat.pos_iff_ne_zero.mp hpos
  have hlog : k.log2 < 53 := (Nat.log2_lt hne).mpr hlt
  refine ⟨?_, ?_⟩
  · have hbits : (2 : Nat) ^ k.log2 * 2 ^ (52 - k.log2) = Nat.pow 2 52 := by
      rw [← Nat.pow_add, Nat.add_sub_cancel' (by omega)]
    rw [← hbits]
    exact Nat.mul_le_mul_right _ (Nat.log2_self_le hne)
  · have hbits : (2 : Nat) ^ (k.log2 + 1) * 2 ^ (52 - k.log2) = 2 * Nat.pow 2 52 := by
      rw [← Nat.pow_add, show k.log2 + 1 + (52 - k.log2) = 53 by omega]
    rw [← hbits]
    exact Nat.mul_lt_mul_of_pos_right Nat.lt_log2_self (Nat.two_pow_pos _)

/-- The magnitude that such an integer is rounded to. -/
def wholeMagnitude (k : Nat) : Nat := (k.log2 + 1022) * Nat.pow 2 52 + k * 2 ^ (52 - k.log2)

theorem wholeMagnitude_lt {k : Nat} (hpos : 0 < k) (hlt : k < 2 ^ 53) :
    wholeMagnitude k < infinityMagnitude := by
  have hlog : k.log2 < 53 := (Nat.log2_lt (Nat.ne_of_gt hpos)).mpr hlt
  have hinfinity : 1074 * Nat.pow 2 52 + 2 * Nat.pow 2 52 ≤ infinityMagnitude := by decide
  have hmul := Nat.mul_le_mul_right (Nat.pow 2 52) (show k.log2 + 1022 ≤ 1074 by omega)
  have hbits := (shifted_bounds hpos hlt).2
  unfold wholeMagnitude
  omega

theorem ofRatio_whole (negative : Bool) {k : Nat} (hpos : 0 < k) (hlt : k < 2 ^ 53) :
    ofRatio negative k 1 = ofMagnitude negative (wholeMagnitude k) := by
  have hne : k ≠ 0 := Nat.pos_iff_ne_zero.mp hpos
  have hlog : k.log2 < 53 := (Nat.log2_lt hne).mpr hlt
  -- one bit is spare at first, so that the quotient has at least the digits that are kept
  have hguess : max ((k.log2 : Int) - (Nat.log2 1 : Nat) - 53) (-1074) =
      -((53 - k.log2 : Nat) : Int) := by
    rw [show Nat.log2 1 = 0 by decide]
    omega
  have htop : ¬k * 2 ^ (53 - k.log2) < 1 * Nat.pow 2 53 := by
    have hbits : (2 : Nat) ^ k.log2 * 2 ^ (53 - k.log2) = Nat.pow 2 53 := by
      rw [← Nat.pow_add, Nat.add_sub_cancel' (by omega)]
    rw [Nat.one_mul, Nat.not_lt, ← hbits]
    exact Nat.mul_le_mul_right _ (Nat.log2_self_le hne)
  have hexponent : -(-((53 - k.log2 : Nat) : Int) + 1) = ((52 - k.log2 : Nat) : Int) := by omega
  have hplace : (-((53 - k.log2 : Nat) : Int) + 1 + 1074).toNat = k.log2 + 1022 := by omega
  -- the integer is below the bound, so rounding cannot run over
  have hfinite : (k.log2 + 1022) * Nat.pow 2 52 + k * 2 ^ (52 - k.log2) ≤ infinityMagnitude :=
    Nat.le_of_lt (wholeMagnitude_lt hpos hlt)
  have hchosen : (if (scaled k 1 (-(-((53 - k.log2 : Nat) : Int)))).1 <
      (scaled k 1 (-(-((53 - k.log2 : Nat) : Int)))).2 *
      Nat.pow 2 53 then -((53 - k.log2 : Nat) : Int)
      else -((53 - k.log2 : Nat) : Int) + 1) = -((53 - k.log2 : Nat) : Int) + 1 := by
    rw [Int.neg_neg, scaled_shift, if_neg htop]
  rw [ofRatio_of_guess negative (by omega) hguess, rounded_eq, hchosen]
  dsimp only
  rw [hexponent, scaled_shift, hplace, roundHalfEven_one, Nat.min_eq_left hfinite]
  rfl

/-- A significand of 53 bits and its place are read back from the magnitude. -/
theorem parts_of_significand (place : Nat) {bits : Nat} (hlow : Nat.pow 2 52 ≤ bits)
    (hhigh : bits < 2 * Nat.pow 2 52) : significand (place * Nat.pow 2 52 + bits) = bits ∧
      lastPlace (place * Nat.pow 2 52 + bits) = (place : Int) - 1074 := by
  have hfield : (place * Nat.pow 2 52 + bits) / Nat.pow 2 52 = place + 1 := by
    have hnext : (place + 1) * Nat.pow 2 52 = place * Nat.pow 2 52 + Nat.pow 2 52 :=
      Nat.succ_mul place (Nat.pow 2 52)
    rw [Nat.div_eq_iff (by decide), hnext]
    omega
  have hfraction : (place * Nat.pow 2 52 + bits) % Nat.pow 2 52 = bits - Nat.pow 2 52 := by
    rw [Nat.mul_add_mod_self_right, Nat.mod_eq_sub_mod hlow, Nat.mod_eq_of_lt (by omega)]
  unfold significand lastPlace
  rw [hfield, hfraction, if_neg (by omega), Nat.sub_add_cancel hlow]
  exact ⟨rfl, by omega⟩

/-- The magnitude that an integer is rounded to has the size of the integer. -/
theorem size_whole {k : Nat} (hpos : 0 < k) (hlt : k < 2 ^ 53) : size (wholeMagnitude k) = k := by
  have hlog : k.log2 < 53 := (Nat.log2_lt (Nat.ne_of_gt hpos)).mpr hlt
  have hplace : ((k.log2 + 1022 : Nat) : Int) - 1074 = -((52 - k.log2 : Nat) : Int) := by omega
  obtain ⟨hlow, hhigh⟩ := shifted_bounds hpos hlt
  obtain ⟨hsignificand, hlast⟩ := parts_of_significand (k.log2 + 1022) hlow hhigh
  unfold size wholeMagnitude
  rw [hsignificand, hlast, hplace, Nat.cast_mul, Nat.cast_pow, zpow_neg, zpow_natCast]
  field_simp
  norm_num

/-! ### What a double says as an integer -/

/-- What is not finite is no integer. -/
theorem isFinite_of_isIntegral {n : Number} (h : n.isIntegral = true) : n.isFinite = true := by
  by_contra hnot
  have hbound : ¬n.magnitude < infinityMagnitude := fun hlt => hnot (decide_eq_true hlt)
  unfold isIntegral meaning at h
  by_cases hnan : n.isNaN = true
  · rw [if_pos hnan] at h
    exact nomatch h
  · have hinfinite : n.isInfinite = true :=
      decide_eq_true
        (Nat.le_antisymm (not_lt.mp fun hlt => hnan (decide_eq_true hlt)) (not_lt.mp hbound))
    rw [if_neg hnan, if_pos hinfinite] at h
    exact nomatch h

/-- Where no bit stands behind the point, the size of a double is its integer part. -/
theorem size_of_whole {magnitude m : Nat} {q : Int} (hm : significand magnitude = m)
    (hq : lastPlace magnitude = q)
    (hwhole : (decide (0 ≤ q) || m % Nat.pow 2 (-q).toNat == 0) = true) :
    size magnitude =
      ((if 0 ≤ q then m * Nat.pow 2 q.toNat else m / Nat.pow 2 (-q).toNat : Nat) : ℚ) := by
  unfold size
  rw [hm, hq]
  by_cases hpos : 0 ≤ q
  · obtain ⟨j, rfl⟩ := Int.eq_ofNat_of_zero_le hpos
    rw [if_pos hpos, Int.toNat_natCast, zpow_natCast,
      show Nat.pow 2 j = 2 ^ j from rfl, Nat.cast_mul, Nat.cast_pow]
    norm_num
  · obtain ⟨j, rfl⟩ : ∃ j : Nat, q = -(j : Int) := ⟨(-q).toNat, by omega⟩
    have hdvd : m % Nat.pow 2 j = 0 := by
      rw [decide_eq_false hpos, Bool.false_or, Int.neg_neg, Int.toNat_natCast] at hwhole
      exact beq_iff_eq.mp hwhole
    -- with a negative exponent the integer is what is left when the power is divided out
    obtain ⟨c, rfl⟩ := Nat.dvd_of_mod_eq_zero hdvd
    rw [if_neg hpos, Int.neg_neg, Int.toNat_natCast, show Nat.pow 2 j = 2 ^ j from rfl,
      Nat.mul_div_cancel_left c (Nat.two_pow_pos j), zpow_neg, zpow_natCast,
      Nat.cast_mul, Nat.cast_pow]
    field_simp
    norm_num
    ring

/-- The integer is the double's exact value, with its sign. -/
theorem toSafeInt?_spec {n : Number} {i : Int} (h : n.toSafeInt? = some i) :
    n.isFinite = true ∧ i.natAbs < 2 ^ 53 ∧ size n.magnitude = i.natAbs ∧
      (i ≠ 0 → n.isNegative = decide (i < 0)) := by
  have hfinite : n.isFinite = true := by
    refine isFinite_of_isIntegral ?_
    cases hintegral : n.isIntegral with
    | true => rfl
    | false =>
      unfold toSafeInt? at h
      rw [hintegral] at h
      exact nomatch h
  unfold toSafeInt? isIntegral truncate? at h
  rw [meaning_eq hfinite] at h
  dsimp only at h
  split at h
  next hwhole =>
    have hsize := size_of_whole rfl rfl hwhole
    generalize (if 0 ≤ lastPlace n.magnitude then
      significand n.magnitude * Nat.pow 2 (lastPlace n.magnitude).toNat
      else significand n.magnitude / Nat.pow 2 (-lastPlace n.magnitude).toNat) = k at h hsize
    obtain ⟨hbound, rfl⟩ : (if n.isNegative = true then -(k : Int) else k).natAbs <
        safeIntegerBound ∧ (if n.isNegative = true then -(k : Int) else k) = i := by
      by_cases hbound : (if n.isNegative = true then -(k : Int) else k).natAbs < safeIntegerBound
      · rw [if_pos hbound] at h
        exact ⟨hbound, Option.some.inj h⟩
      · rw [if_neg hbound] at h
        exact nomatch h
    refine ⟨hfinite, hbound, ?_, ?_⟩
    · rw [hsize]
      cases n.isNegative <;> simp
    · cases n.isNegative with
      | false => exact fun _ => (decide_eq_false (Int.not_lt.mpr (Int.natCast_nonneg k))).symm
      | true =>
        intro hne
        rw [if_pos rfl] at hne ⊢
        exact (decide_eq_true (by omega)).symm
  next => exact nomatch h

theorem ofInt_eq (i : Int) : ofInt i = ofRatio (decide (i < 0)) i.natAbs 1 := by
  unfold ofInt ofNat
  by_cases hneg : i < 0
  · rw [if_pos hneg, decide_eq_true hneg]
  · rw [if_neg hneg, decide_eq_false hneg, show i.toNat = i.natAbs by omega]

/-- The integer of a double gives the double back, unless it is zero. -/
theorem ofInt_of_toSafeInt? {n : Number} {i : Int} (h : n.toSafeInt? = some i) :
    if i = 0 then n.isZero = true else ofInt i = n := by
  obtain ⟨hfinite, hbound, hsize, hsign⟩ := toSafeInt?_spec h
  by_cases hzero : i = 0
  · rw [if_pos hzero]
    rw [hzero, Int.natAbs_zero, Nat.cast_zero, ← size_zero] at hsize
    exact decide_eq_true (size_strictMono.injective hsize)
  · rw [if_neg hzero]
    have hpos : 0 < i.natAbs := Int.natAbs_pos.mpr hzero
    have hmagnitude : wholeMagnitude i.natAbs = n.magnitude :=
      size_strictMono.injective ((size_whole hpos hbound).trans hsize.symm)
    have hlt : n.magnitude < Nat.pow 2 63 := by
      have hmagnitude : n.magnitude < infinityMagnitude := of_decide_eq_true hfinite
      exact Nat.lt_trans hmagnitude (by decide)
    rw [ofInt_eq, ofRatio_whole _ hpos hbound, hmagnitude]
    refine eq_of_magnitude ?_ (magnitude_ofMagnitude _ hlt)
    rw [isNegative_ofMagnitude _ hlt, hsign hzero]

end Conform.Number
