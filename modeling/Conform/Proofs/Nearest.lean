import Mathlib.Data.Nat.Cast.Order.Field
import Conform.Proofs.FiniteNumbers

/-!
# Integers as doubles

An integer has a double of its own unless it takes more than 53 bits. Otherwise it lies between two
doubles, and is rounded to the nearer one, or to the even one where both are as near.

The rounding of a natural number is found among the midpoints that `Rounds` speaks of
(`rounds_ofRatio`); that no other double is nearer then holds on the line of rationals
(`Rounds.nearest`), where the sign makes no difference.

An integer of no more than 53 bits is a significand and comes out as it is. One of more bits is cut:
the leading 53 bits are kept, and what is behind them decides by the half whether one is added, ties
going to the even significand. Cut in this way an integer lies between two magnitudes that follow
one another, on one side of the midpoint or on it (`rounds_leading`), and so it rounds to the
magnitude that is computed. Adding one may carry over into the exponent, which needs no case, since
magnitudes go on counting there.

That nothing is nearer follows on the line without regard to how the magnitude was found: beyond a
neighbour everything is farther away than the neighbour. The sign is put back at the end. Doubles of
the other sign are on the other side of zero, so none of them is nearer than zero itself.

Main statements: `isNearest_ofInt`, and `Value.number?_numberToJson` by which doubles are
written as what they stand for.
-/

namespace Conform.Number

/-- The rational that a finite double stands for. -/
def toRat (n : Number) : ℚ := if n.isNegative then -size n.magnitude else size n.magnitude

/-- No finite double is nearer to the rational, and of two that are as near it is the even one. -/
structure IsNearest (n : Number) (x : ℚ) : Prop where
  finite : n.isFinite = true
  nearest : ∀ m : Number, m.isFinite = true → |n.toRat - x| ≤ |m.toRat - x|
  even : ∀ m : Number, m.isFinite = true → |m.toRat - x| = |n.toRat - x| →
    m.toRat = n.toRat ∨ n.magnitude % 2 = 0

theorem size_nonneg (magnitude : Nat) : 0 ≤ size magnitude := by
  rw [← size_zero]
  exact size_strictMono.monotone (Nat.zero_le magnitude)

/-! ### On the line of rationals -/

theorem rounds_size {magnitude : Nat} (hpos : 0 < magnitude) :
    Rounds magnitude (size magnitude) := by
  have hfirst := midpoint_lt_size hpos
  have hlast := size_lt_midpoint magnitude
  unfold Rounds
  by_cases heven : magnitude % 2 = 0
  · rw [if_pos heven]
    exact ⟨le_of_lt hfirst, le_of_lt hlast⟩
  · rw [if_neg heven]
    exact ⟨hfirst, hlast⟩

/-- Any other magnitude is at least as far away, and farther if this one is odd. -/
theorem Rounds.nearest {magnitude other : Nat} {x : ℚ} (hpos : 0 < magnitude)
    (h : Rounds magnitude x) (hne : other ≠ magnitude) :
    |size magnitude - x| ≤ |size other - x| ∧
      (magnitude % 2 ≠ 0 → |size magnitude - x| < |size other - x|) := by
  obtain ⟨hlow, hhigh⟩ := h.bounds
  have hodd : magnitude % 2 ≠ 0 → midpoint (magnitude - 1) < x ∧ x < midpoint magnitude := by
    intro hodd
    unfold Rounds at h
    rwa [if_neg hodd] at h
  have hbelow := size_strictMono (Nat.sub_one_lt (Nat.ne_of_gt hpos))
  have habove := size_strictMono (Nat.lt_succ_self magnitude)
  unfold midpoint at hlow hhigh hodd
  rw [Nat.sub_add_cancel hpos] at hlow hodd
  -- on either side, the neighbour is between
  rcases Nat.lt_or_gt_of_ne hne with hlt | hgt
  · have hother : size other ≤ size (magnitude - 1) := size_strictMono.monotone (by omega)
    have hfar : x - size other ≤ |size other - x| := by
      rw [abs_sub_comm]
      exact le_abs_self _
    refine ⟨abs_le.mpr ⟨by linarith, by linarith⟩, ?_⟩
    intro h
    obtain ⟨hlow, -⟩ := hodd h
    exact abs_lt.mpr ⟨by linarith, by linarith⟩
  · have hother : size (magnitude + 1) ≤ size other := size_strictMono.monotone hgt
    have hfar : size other - x ≤ |size other - x| := le_abs_self _
    refine ⟨abs_le.mpr ⟨by linarith, by linarith⟩, ?_⟩
    intro h
    obtain ⟨-, hhigh⟩ := hodd h
    exact abs_lt.mpr ⟨by linarith, by linarith⟩

/-! ### The rounding of an integer -/

/-- An integer of more than 53 bits is cut behind them and rounded there. -/
theorem ofRatio_long (negative : Bool) {k s : Nat} (hlog : k.log2 = s + 53) :
    ofRatio negative k 1 = ofMagnitude negative
      (min ((s + 1075) * Nat.pow 2 52 + roundHalfEven k (2 ^ (s + 1))) infinityMagnitude) := by
  have hne : k ≠ 0 := by
    intro hzero
    rw [hzero] at hlog
    exact absurd hlog (by simp)
  obtain ⟨guess, exponent, hguess, hexponent, hplaced⟩ :=
    ofRatio_placed negative (show ¬(k = 0 ∨ 1 = 0) by omega)
  -- the guess leaves 54 bits
  obtain rfl : guess = s := by
    rw [hlog, show Nat.log2 1 = 0 by decide] at hguess
    omega
  have hscaled (s : Nat) : scaled k 1 (-(s : Int)) = (k, 2 ^ s) := by
    unfold scaled
    cases s with
    | zero => simp
    | succ s =>
      rw [if_neg (by omega), Int.neg_neg, Int.toNat_natCast, Nat.one_mul]
      rfl
  -- which is one too many, so the exponent is one more
  have hlow : 2 ^ s * Nat.pow 2 53 ≤ k := by
    have hbits : (2 : Nat) ^ s * Nat.pow 2 53 = 2 ^ k.log2 := by rw [hlog, Nat.pow_add]
    rw [hbits]
    exact Nat.log2_self_le hne
  rw [hscaled, if_neg (not_lt.mpr hlow)] at hexponent
  obtain rfl : exponent = ((s + 1 : Nat) : Int) := by omega
  rw [hplaced, hscaled, show (((s + 1 : Nat) : Int) + 1074).toNat = s + 1075 by omega]

/-- What lies between a magnitude and the next one rounds to one of them, by the half. -/
theorem rounds_of_half {magnitude step rest : Nat} (hpos : 0 < magnitude) {x : ℚ}
    (hstep : (2 : ℚ) ^ lastPlace magnitude = step) (hrest : rest < step)
    (hx : x = size magnitude + rest) :
    Rounds (if step < 2 * rest ∨ 2 * rest = step ∧
      magnitude % 2 = 1 then magnitude + 1 else magnitude) x := by
  have hnext := size_succ magnitude
  rw [hstep] at hnext
  have hbelow := size_strictMono (Nat.sub_one_lt (Nat.ne_of_gt hpos))
  have habove := size_strictMono (Nat.lt_succ_self (magnitude + 1))
  have hrest : (rest : ℚ) < step := by exact_mod_cast hrest
  have hnonneg : (0 : ℚ) ≤ rest := by exact_mod_cast Nat.zero_le rest
  by_cases hup : step < 2 * rest ∨ 2 * rest = step ∧ magnitude % 2 = 1
  · rw [if_pos hup]
    unfold Rounds midpoint
    rw [Nat.add_sub_cancel]
    rcases hup with hmore | ⟨hhalf, hodd⟩
    · have hmore : (step : ℚ) < 2 * rest := by exact_mod_cast hmore
      split
      · exact ⟨by linarith, by linarith⟩
      · exact ⟨by linarith, by linarith⟩
    · -- a tie, and the next one is even
      have hhalf : (2 : ℚ) * rest = step := by exact_mod_cast hhalf
      rw [if_pos (by omega)]
      exact ⟨by linarith, by linarith⟩
  · -- no more than half, or a tie at an even place
    rw [if_neg hup]
    obtain ⟨hless, htie⟩ := not_or.mp hup
    have hless : (2 : ℚ) * rest ≤ step := by exact_mod_cast not_lt.mp hless
    unfold Rounds midpoint
    rw [Nat.sub_add_cancel hpos]
    by_cases heven : magnitude % 2 = 0
    · rw [if_pos heven]
      exact ⟨by linarith, by linarith⟩
    · rw [if_neg heven]
      have hless : (2 : ℚ) * rest < step := by
        refine lt_of_le_of_ne hless ?_
        intro hhalf
        exact htie ⟨by exact_mod_cast hhalf, by omega⟩
      exact ⟨by linarith, by linarith⟩

/-- A number of more than 53 bits rounds to its leading 53 bits, or to one
more of the last of them. -/
theorem rounds_leading {k s : Nat} (hlog : k.log2 = s + 53) :
    0 < (s + 1075) * Nat.pow 2 52 + roundHalfEven k (2 ^ (s + 1)) ∧
    Rounds ((s + 1075) * Nat.pow 2 52 + roundHalfEven k (2 ^ (s + 1))) k := by
  have hne : k ≠ 0 := by
    rintro rfl
    rw [Nat.log2_zero] at hlog
    omega
  obtain ⟨unit, hunit⟩ : ∃ unit, unit = 2 ^ (s + 1) := ⟨_, rfl⟩
  have hpositive : 0 < unit := hunit ▸ Nat.two_pow_pos _
  have hlow : Nat.pow 2 52 ≤ k / unit := by
    rw [Nat.le_div_iff_mul_le hpositive, hunit, show Nat.pow 2 52 = 2 ^ 52 from rfl, ← Nat.pow_add,
      show 52 + (s + 1) = k.log2 by omega]
    exact Nat.log2_self_le hne
  have hhigh : k / unit < 2 * Nat.pow 2 52 := by
    rw [Nat.div_lt_iff_lt_mul hpositive, hunit, show 2 * Nat.pow 2 52 = 2 ^ 53 by
      decide, ← Nat.pow_add, show 53 + (s + 1) = k.log2 + 1 by omega]
    exact Nat.lt_log2_self
  -- the magnitude whose significand is the leading 53 bits
  obtain ⟨magnitude, hm⟩ : ∃ magnitude, magnitude = (s + 1075) * Nat.pow 2 52 + k / unit := ⟨_, rfl⟩
  obtain ⟨hsignificand, hlast⟩ := parts_of_significand (s + 1075) hlow hhigh
  rw [← hm] at hsignificand hlast
  have hstep : (2 : ℚ) ^ lastPlace magnitude = unit := by
    rw [hlast, show ((s + 1075 : Nat) : Int) - 1074 =
      ((s + 1 : Nat) : Int) by omega, zpow_natCast, hunit]
    norm_num
  have hvalue : (k : ℚ) = size magnitude + (k % unit : Nat) := by
    have hdiv := Nat.div_add_mod k unit
    unfold size
    rw [hsignificand, hstep, ← Nat.cast_mul, ← Nat.cast_add, Nat.mul_comm, hdiv]
  have hplace : 0 < magnitude := by
    have hbits : 0 < Nat.pow 2 52 := by decide
    omega
  have hparity : magnitude % 2 = k / unit % 2 := by
    rw [← hsignificand]
    exact (significand_mod_two magnitude).symm
  have hrounds := rounds_of_half hplace hstep (Nat.mod_lt k hpositive) hvalue
  have hrounded : (s + 1075) * Nat.pow 2 52 + roundHalfEven k unit =
      if unit < 2 * (k % unit) ∨ 2 * (k % unit) = unit ∧
      magnitude % 2 = 1 then magnitude + 1 else magnitude := by
    unfold roundHalfEven
    dsimp only
    rw [hparity, hm, apply_ite (fun bits => (s + 1075) * Nat.pow 2 52 + bits), Nat.add_assoc]
  rw [← hunit, hrounded]
  refine ⟨?_, hrounds⟩
  split <;> omega

/-- A natural number rounds to the magnitude that it is given. -/
theorem rounds_ofRatio (negative : Bool) {k : Nat} (hpos : 0 < k)
    (hfinite : (ofRatio negative k 1).isFinite = true) :
    0 < (ofRatio negative k 1).magnitude ∧ Rounds (ofRatio negative k 1).magnitude k := by
  have hne : k ≠ 0 := Nat.ne_of_gt hpos
  have hmagnitude : (ofRatio negative k 1).magnitude < infinityMagnitude :=
    of_decide_eq_true hfinite
  have hinfinity : infinityMagnitude < Nat.pow 2 63 := by decide
  by_cases hshort : k < 2 ^ 53
  · have hlt := wholeMagnitude_lt hpos hshort
    have hsize := size_whole hpos hshort
    have hwhole : 0 < wholeMagnitude k := by
      refine Nat.pos_of_ne_zero ?_
      intro hzero
      rw [hzero, size_zero] at hsize
      exact hne (by exact_mod_cast hsize.symm)
    rw [ofRatio_whole negative hpos hshort,
      magnitude_ofMagnitude negative (Nat.lt_trans hlt hinfinity), ← hsize]
    exact ⟨hwhole, rounds_size hwhole⟩
  · obtain ⟨s, hlog⟩ : ∃ s, k.log2 = s + 53 := by
      have hlog : 53 ≤ k.log2 := (Nat.le_log2 hne).mpr (not_lt.mp hshort)
      exact ⟨k.log2 - 53, by omega⟩
    rw [ofRatio_long negative hlog, magnitude_capped] at hmagnitude ⊢
    rw [Nat.min_eq_left (by omega)]
    exact rounds_leading hlog

/-! ### With signs -/

theorem isNegative_ofRatio (negative : Bool) {num den : Nat} (hpos : ¬(num = 0 ∨ den = 0)) :
    (ofRatio negative num den).isNegative = negative := by
  obtain ⟨guess, exponent, -, -, hplaced⟩ := ofRatio_placed negative hpos
  rw [hplaced]
  exact isNegative_ofMagnitude negative (Nat.lt_of_le_of_lt (Nat.min_le_right _ _) (by decide))

theorem abs_sub_of_sign {n : Number} {i : Int} (hsign : n.isNegative = decide (i < 0)) :
    |n.toRat - i| = |size n.magnitude - i.natAbs| := by
  unfold toRat
  rw [hsign]
  by_cases hneg : i < 0
  · have hcast : (i : ℚ) = -(i.natAbs : ℚ) := by
      rw [← Int.cast_natCast, Int.ofNat_natAbs_of_nonpos (le_of_lt hneg), Int.cast_neg, neg_neg]
    rw [decide_eq_true hneg, if_pos rfl, hcast, ← abs_neg]
    congr 1
    ring
  · have hcast : (i : ℚ) = (i.natAbs : ℚ) := by
      rw [← Int.cast_natCast, Int.natAbs_of_nonneg (not_lt.mp hneg)]
    rw [decide_eq_false hneg, if_neg Bool.false_ne_true, hcast]

/-- A double of the other sign is no nearer than zero. -/
theorem abs_sub_of_other_sign {n : Number} {i : Int} (hsign : n.isNegative ≠ decide (i < 0)) :
    |size 0 - i.natAbs| ≤ |n.toRat - i| := by
  have hsize := size_nonneg n.magnitude
  have hzero : |size 0 - (i.natAbs : ℚ)| = |(i : ℚ)| := by
    rw [size_zero, zero_sub, abs_neg, Nat.abs_cast, Nat.cast_natAbs, Int.cast_abs]
  rw [hzero]
  unfold toRat
  by_cases hneg : i < 0
  · have hi : (i : ℚ) < 0 := by exact_mod_cast hneg
    rw [decide_eq_true hneg] at hsign
    rw [if_neg hsign, abs_of_neg hi]
    exact le_trans (by linarith) (le_abs_self _)
  · have hi : (0 : ℚ) ≤ i := by exact_mod_cast not_lt.mp hneg
    rw [decide_eq_false hneg] at hsign
    rw [if_pos (Bool.eq_true_of_not_eq_false hsign), abs_of_nonneg hi]
    exact le_trans (by linarith) (neg_le_abs _)

/-- An integer is rounded to the nearest double. -/
theorem isNearest_ofInt {i : Int} (hfinite : (ofInt i).isFinite = true) :
    (ofInt i).IsNearest i := by
  by_cases hzero : i = 0
  · subst hzero
    have hvalue : (ofInt 0).toRat = 0 := by
      have hmagnitude : (ofInt 0).magnitude = 0 := by decide
      unfold toRat
      rw [hmagnitude, size_zero, neg_zero, ite_self]
    refine ⟨hfinite, ?_, ?_⟩
    · intro m _
      rw [hvalue, Int.cast_zero, sub_zero, abs_zero]
      exact abs_nonneg _
    · intro m _ htie
      rw [hvalue, Int.cast_zero, sub_zero, sub_zero, abs_zero, abs_eq_zero] at htie
      exact .inl (htie.trans hvalue.symm)
  have hpos : 0 < i.natAbs := Int.natAbs_pos.mpr hzero
  have hsign : (ofInt i).isNegative = decide (i < 0) := by
    rw [ofInt_eq]
    exact isNegative_ofRatio _ (by omega)
  have hrounds : 0 < (ofInt i).magnitude ∧ Rounds (ofInt i).magnitude i.natAbs := by
    rw [ofInt_eq] at hfinite ⊢
    exact rounds_ofRatio _ hpos hfinite
  obtain ⟨hmagnitude, hrounds⟩ := hrounds
  -- what another double amounts to, on the line of sizes
  have hother (m : Number) : ∃ other, |size other - (i.natAbs : ℚ)| ≤ |m.toRat - i| ∧
      (other = (ofInt i).magnitude → m.toRat = (ofInt i).toRat) := by
    by_cases hsame : m.isNegative = decide (i < 0)
    · refine ⟨m.magnitude, le_of_eq (abs_sub_of_sign hsame).symm, ?_⟩
      intro heq
      unfold toRat
      rw [heq, hsame, hsign]
    · exact ⟨0, abs_sub_of_other_sign hsame, fun heq => absurd heq (Nat.ne_of_lt hmagnitude)⟩
  refine ⟨hfinite, ?_, ?_⟩
  · intro m _
    obtain ⟨other, hle, -⟩ := hother m
    rw [abs_sub_of_sign hsign]
    by_cases hne : other = (ofInt i).magnitude
    · rwa [← hne]
    · exact le_trans (hrounds.nearest hmagnitude hne).1 hle
  · intro m _ htie
    obtain ⟨other, hle, hsame⟩ := hother m
    rw [htie, abs_sub_of_sign hsign] at hle
    by_cases hne : other = (ofInt i).magnitude
    · exact .inl (hsame hne)
    · refine .inr ?_
      by_contra hodd
      exact absurd ((hrounds.nearest hmagnitude hne).2 hodd) (not_lt.mpr hle)

/-- A double is nearest to itself. -/
theorem isNearest_toRat {n : Number} (hfinite : n.isFinite = true) : n.IsNearest n.toRat := by
  refine ⟨hfinite, ?_, ?_⟩
  · intro m _
    rw [sub_self, abs_zero]
    exact abs_nonneg _
  · intro m _ htie
    rw [sub_self, abs_zero, abs_eq_zero] at htie
    exact .inl (sub_eq_zero.mp htie)

/-- What is a double comes out as it is. -/
theorem IsNearest.exact {n m : Number} {x : ℚ} (h : n.IsNearest x) (hfinite : m.isFinite = true)
    (hm : m.toRat = x) : n.toRat = x := by
  have hle := h.nearest m hfinite
  rw [hm, sub_self, abs_zero] at hle
  exact sub_eq_zero.mp (abs_eq_zero.mp (le_antisymm hle (abs_nonneg _)))

theorem exists_size {k : Nat} (h : k ≤ 2 ^ 53) :
    ∃ magnitude < infinityMagnitude, size magnitude = k := by
  by_cases hzero : k = 0
  · exact ⟨0, by decide, by rw [hzero, size_zero, Nat.cast_zero]⟩
  have hpos : 0 < k := Nat.pos_of_ne_zero hzero
  by_cases hlt : k < 2 ^ 53
  · exact ⟨wholeMagnitude k, wholeMagnitude_lt hpos hlt, size_whole hpos hlt⟩
  · obtain rfl : k = 2 ^ 53 := by omega
    obtain ⟨hsignificand, hlast⟩ :=
      parts_of_significand 1075 (Nat.le_refl (Nat.pow 2 52)) (by decide)
    refine ⟨1075 * Nat.pow 2 52 + Nat.pow 2 52, by decide, ?_⟩
    unfold size
    rw [hsignificand, hlast]
    norm_num

/-- Integers up to `2 ^ 53` in size are doubles. -/
theorem toRat_ofInt {i : Int} (h : i.natAbs ≤ 2 ^ 53) : (ofInt i).toRat = i := by
  obtain ⟨magnitude, hlt, hsize⟩ := exists_size h
  have hbound : magnitude < Nat.pow 2 63 := Nat.lt_trans hlt (by decide)
  have hmagnitude : (ofMagnitude (decide (i < 0)) magnitude).magnitude = magnitude :=
    magnitude_ofMagnitude _ hbound
  have hsign := isNegative_ofMagnitude (decide (i < 0)) hbound
  refine (isNearest_ofInt (isFinite_ofInt (by omega))).exact
    (decide_eq_true (hmagnitude.symm ▸ hlt)) ?_
  have hdistance := abs_sub_of_sign hsign
  rw [hmagnitude, hsize, sub_self, abs_zero, abs_eq_zero] at hdistance
  exact sub_eq_zero.mp hdistance

/-- The whole part of a double that is not negative, held to 64 bits, is not above it. -/
theorem toCount_le_toRat {n : Number} (hfinite : n.isFinite = true) (hzero : zero.le n = true) :
    (n.toCount : ℚ) ≤ n.toRat := by
  have hplace : 0 ≤ n.place := by
    unfold le at hzero
    rw [Bool.and_eq_true, decide_eq_true_eq] at hzero
    exact hzero.2
  generalize hm : significand n.magnitude = m
  generalize hq : lastPlace n.magnitude = q
  have hsize : size n.magnitude = m * (2 : ℚ) ^ q := by rw [size, hm, hq]
  have hwhole : ((if 0 ≤ q then m * Nat.pow 2 q.toNat else m / Nat.pow 2 (-q).toNat : Nat) : ℚ) ≤
      size n.magnitude := by
    rw [hsize]
    -- a whole number, or one cut at the point
    by_cases hpos : 0 ≤ q
    · obtain ⟨j, rfl⟩ := Int.eq_ofNat_of_zero_le hpos
      rw [if_pos hpos, Int.toNat_natCast, zpow_natCast, show Nat.pow 2 j = 2 ^ j from rfl,
        Nat.cast_mul, Nat.cast_pow]
      exact le_refl _
    · obtain ⟨j, rfl⟩ : ∃ j : Nat, q = -(j : Int) := ⟨(-q).toNat, by omega⟩
      rw [if_neg hpos, Int.neg_neg, Int.toNat_natCast, zpow_neg, zpow_natCast, ← div_eq_mul_inv]
      exact_mod_cast Nat.cast_div_le (m := m) (n := Nat.pow 2 j) (α := ℚ)
  unfold toCount clampInt truncate? toRat
  rw [meaning_eq hfinite, hm, hq]
  dsimp only
  generalize (if 0 ≤ q then m * Nat.pow 2 q.toNat else m / Nat.pow 2 (-q).toNat : Nat) =
    k at hwhole ⊢
  by_cases hneg : n.isNegative = true
  · -- only a zero has the sign of the negative numbers
    have hnone : n.magnitude = 0 := by
      unfold place at hplace
      rw [if_pos hneg] at hplace
      omega
    rw [if_pos hneg, if_pos hneg, hnone, size_zero, neg_zero]
    have hzero : (max (0 : Int) (min 0xffffffffffffffff (-(k : Int)))).toNat = 0 := by omega
    rw [hzero, Nat.cast_zero]
  · rw [if_neg hneg, if_neg hneg]
    have hle : (max (0 : Int) (min 0xffffffffffffffff (k : Int))).toNat ≤ k := by omega
    exact le_trans (Nat.cast_le.mpr hle) hwhole

end Conform.Number

namespace Conform

/-- The rational that a JSON number stands for. -/
def Json.number? : Json → Option ℚ
  | .int i => some i
  | .float n => some n.toRat
  | _ => none

/-- Written as JSON, a finite double stands for the same rational, be it as an integer. -/
theorem Value.number?_numberToJson {n : Number} (hfinite : n.isFinite = true) :
    (numberToJson n).number? = some n.toRat := by
  unfold numberToJson
  cases hint : n.toSafeInt? with
  | none =>
    dsimp only
    rw [if_pos hfinite]
    rfl
  | some i =>
    obtain ⟨-, -, hsize, hsign⟩ := Number.toSafeInt?_spec hint
    refine congrArg some ?_
    by_cases hzero : i = 0
    · rw [hzero, Int.natAbs_zero, Nat.cast_zero] at hsize
      rw [hzero]
      unfold Number.toRat
      rw [hsize, neg_zero, ite_self, Int.cast_zero]
    · have hdistance := Number.abs_sub_of_sign (hsign hzero)
      rw [hsize, sub_self, abs_zero, abs_eq_zero] at hdistance
      exact (sub_eq_zero.mp hdistance).symm

end Conform
